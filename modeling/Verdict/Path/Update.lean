import Verdict.Path.Resolve

/-!
# Path/Update — writing at an existing place

A write replaces the value in one slot of a container: a field that exists or an item in range.
Since a marked container may occur in several places, a write into one shows at all of them
(`replaceMarked`).
-/

namespace Verdict

/-- A slot of a container. -/
inductive Slot where
  | field (name : String)
  | item (n : Nat)
  deriving DecidableEq, Repr

namespace Value

/-- Fill a slot that exists; a value without such a slot is as it was. -/
def fill (v : Value) (slot : Slot) (new : Value) : Value :=
  match v, slot with
  | .object mark fields, .field name => .object mark (Entries.put name new fields)
  | .list mark items, .item n => .list mark (items.set n new)
  | v, _ => v

/-- The slot of a container that a segment leads to, if there is one. -/
def slot? (v : Value) (s : Segment) : Option Slot :=
  match v, s with
  | .object _ fields, .key name => if (Entries.find? name fields).isSome then some (.field name) else none
  | .list _ items, .index i => (Segment.position? items.length i).map Slot.item
  | _, _ => none

mutual

/-- Put a container in every place where containers of its mark occur. -/
def replaceMarked (n : Nat) (new : Value) : Value → Value
  | .list mark items =>
    if mark = some n then new else .list mark (replaceMarkedItems n new items)
  | .object mark fields =>
    if mark = some n then new else .object mark (replaceMarkedFields n new fields)
  | .null => .null
  | .bool b => .bool b
  | .int i => .int i
  | .float x => .float x
  | .str s => .str s
  | .date d => .date d
  | .dateTime t => .dateTime t

/-- Put a container in its places among items. -/
def replaceMarkedItems (n : Nat) (new : Value) : List Value → List Value
  | [] => []
  | v :: rest => replaceMarked n new v :: replaceMarkedItems n new rest

/-- Put a container in its places among fields. -/
def replaceMarkedFields (n : Nat) (new : Value) : List (String × Value) → List (String × Value)
  | [] => []
  | (k, v) :: rest => (k, replaceMarked n new v) :: replaceMarkedFields n new rest

end

/-- Put a value at the place that slots lead to. -/
def putAt (new : Value) : List Segment → Value → Value
  | [], _ => new
  | s :: rest, v =>
    match slot? v s, (s.step v).head? with
    | some slot, some inner => v.fill slot (putAt new rest inner)
    | _, _ => v

end Value

/-- A write into a container: every occurrence of the container is to become `after`. -/
structure Write where
  /-- Where the container is. -/
  place : List Segment
  /-- The container before the write. -/
  before : Value
  /-- The container after the write. -/
  after : Value

namespace Write

/-- The effect of a write on the value in which its place was looked up. -/
def applyTo (w : Write) (root : Value) : Value :=
  match w.before.mark with
  | some n => Value.replaceMarked n w.after root
  | none => Value.putAt w.after w.place root

/-- The effect of a write on another value, which shares no container but marked ones. -/
def applyElsewhere (w : Write) (v : Value) : Value :=
  match w.before.mark with
  | some n => Value.replaceMarked n w.after v
  | none => v

end Write

namespace Path

/-- The write that fills the slot which segments lead to, without wildcards. -/
def writeAt? (ss : List Segment) (root new : Value) : Option Write :=
  match ss.getLast? with
  | none => none
  | some last =>
    if Segment.hasWildcard ss then none
    else
      match (Segment.walk ss.dropLast root).head? with
      | none => none
      | some container =>
        (container.slot? last).map fun slot => ⟨ss.dropLast, container, container.fill slot new⟩

/-- The write that a path asks for: into the field it names literally, else where it leads.  None
when there is no such place. -/
def write? (path : String) (root new : Value) : Except Fault (Option Write) :=
  if root.hasField path then .ok (some ⟨[], root, root.fill (.field path) new⟩)
  else
    match segments path with
    | .error f => .error f
    | .ok none => .ok none
    | .ok (some ss) => .ok (writeAt? ss root new)

/-- A root after a write, and whether there was one. -/
def update (path root new : Value) : Except Fault (Bool × Value) :=
  match path with
  | .str path =>
    (write? path root new).map fun
      | some w => (true, w.applyTo root)
      | none => (false, root)
  | _ => .ok (false, root)

end Path

end Verdict
