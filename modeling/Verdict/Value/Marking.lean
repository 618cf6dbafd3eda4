import Verdict.Value.Basic

/-!
# Value/Marking — copies and marks

`copied` makes a copy of a value in which every container is new, though containers that were one
stay one.  `settled` marks the containers that have no mark yet.  `unmarked` drops all marks.
-/

namespace Verdict

/-- The next free mark, and the new marks of the containers that were copied. -/
structure Marking where
  next : Nat
  renamed : List (Nat × Nat)

namespace Marking

/-- No container copied yet. -/
def startingAt (next : Nat) : Marking := ⟨next, []⟩

/-- A mark of its own. -/
def fresh (m : Marking) : Nat × Marking := (m.next, { m with next := m.next + 1 })

/-- The new mark of a container: always the same one for one container. -/
def rename (m : Marking) : Mark → Nat × Marking
  | none => m.fresh
  | some old =>
    match Entries.find? old m.renamed with
    | some new => (new, m)
    | none => (m.next, ⟨m.next + 1, Entries.put old m.next m.renamed⟩)

/-- The mark of a container, a new one where there is none. -/
def keep (m : Marking) : Mark → Nat × Marking
  | none => m.fresh
  | some old => (old, m)

end Marking

namespace Value

mutual

/-- Mark the containers of a value by a rule. -/
def remark (rule : Marking → Mark → Nat × Marking) (m : Marking) : Value → Value × Marking
  | .list mark items =>
    let (n, m) := rule m mark
    let (items, m) := remarkItems rule m items
    (.list (some n) items, m)
  | .object mark fields =>
    let (n, m) := rule m mark
    let (fields, m) := remarkFields rule m fields
    (.object (some n) fields, m)
  | .null => (.null, m)
  | .bool b => (.bool b, m)
  | .int i => (.int i, m)
  | .float x => (.float x, m)
  | .str s => (.str s, m)
  | .date d => (.date d, m)
  | .dateTime t => (.dateTime t, m)

/-- Mark the containers among items. -/
def remarkItems (rule : Marking → Mark → Nat × Marking) (m : Marking) :
    List Value → List Value × Marking
  | [] => ([], m)
  | v :: rest =>
    let (v, m) := remark rule m v
    let (rest, m) := remarkItems rule m rest
    (v :: rest, m)

/-- Mark the containers among fields. -/
def remarkFields (rule : Marking → Mark → Nat × Marking) (m : Marking) :
    List (String × Value) → List (String × Value) × Marking
  | [] => ([], m)
  | (k, v) :: rest =>
    let (v, m) := remark rule m v
    let (rest, m) := remarkFields rule m rest
    ((k, v) :: rest, m)

end

/-- A copy whose containers have marks from `next` on, and the next free mark. -/
def copied (next : Nat) (v : Value) : Value × Nat :=
  let (v, m) := remark Marking.rename (Marking.startingAt next) v
  (v, m.next)

/-- The value with marks from `next` on for the containers that have none, and the next free mark. -/
def settled (next : Nat) (v : Value) : Value × Nat :=
  let (v, m) := remark Marking.keep (Marking.startingAt next) v
  (v, m.next)

mutual

/-- The value without marks. -/
def unmarked : Value → Value
  | .list _ items => .list none (unmarkedItems items)
  | .object _ fields => .object none (unmarkedFields fields)
  | .null => .null
  | .bool b => .bool b
  | .int i => .int i
  | .float x => .float x
  | .str s => .str s
  | .date d => .date d
  | .dateTime t => .dateTime t

/-- Items without marks. -/
def unmarkedItems : List Value → List Value
  | [] => []
  | v :: rest => unmarked v :: unmarkedItems rest

/-- Fields without marks. -/
def unmarkedFields : List (String × Value) → List (String × Value)
  | [] => []
  | (k, v) :: rest => (k, unmarked v) :: unmarkedFields rest

end

end Value

end Verdict
