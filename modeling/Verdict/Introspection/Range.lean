import Verdict.Introspection.Alternative

/-!
# Introspection/Range — how the alternatives of a result grow

A **range** is the list of alternatives of one result.  Going through a rule attaches the alternative
of one condition after another:

* a root condition, and AND or NONE directly under OR, adds an alternative of its own; deeper than
  one level it starts from the last one, without what its last sibling put there;
* any other condition adds to the last alternative.

Each of these is remembered as a **step**, with its changes when it changed the last alternative.
-/

namespace Verdict

/-- A requirement put into an alternative. -/
structure Change where
  field : Value
  value : Value
  deriving Repr

/-- One condition's contribution to a range. -/
structure Step where
  parent : Option Branch
  branch : Branch
  depth : Nat
  /-- None when the step added an alternative. -/
  changes : Option (List Change)
  deriving Repr

namespace Step

/-- The names of fields, which have to be texts. -/
def fieldNames : List Change → Except Fault (List String)
  | [] => .ok []
  | ⟨.str name, _⟩ :: rest => (fieldNames rest).map (name :: ·)
  | _ :: _ => .error .wrongKind

/-- A step in one line. -/
def summary (s : Step) : Except Fault String :=
  (fieldNames (s.changes.getD [])).map fun names =>
    "depth=" ++ toString s.depth ++ " " ++ s.parent.elim "root" Branch.name ++ "->" ++
    s.branch.name ++ " changes=[" ++ (if names.isEmpty then "-" else ", ".intercalate names) ++ "]"

end Step

namespace Value

/-- Neither a list nor an object. -/
def isScalar : Value → Bool
  | .list .. | .object .. => false
  | _ => true

/-- Equal values that are neither lists nor objects. -/
def sameScalar (a b : Value) : Bool := a.isScalar && b.isScalar && a.equal b

end Value

namespace Alternative

/-- Take a change out of an alternative: the field when its requirement is the changed value, else
the changed items of its list. -/
def undo (a : Alternative) (c : Change) : Alternative :=
  match a.find? c.field with
  | none => a
  | some current =>
    if current.sameScalar c.value then a.without c.field
    else
      match current with
      | .list _ items =>
        a.put c.field (.ofItems (items.filter fun item => !c.value.flat.any item.sameScalar))
      | _ => a

/-- Take the changes of the latest steps out of an alternative, as long as they are at a depth.  The
latest step comes first. -/
def undoSteps (a : Alternative) (depth : Nat) : List Step → Alternative
  | [] => a
  | s :: rest =>
    if s.depth = depth then undoSteps ((s.changes.getD []).foldl undo a) depth rest else a

end Alternative

/-- A range under construction: its alternatives, and all steps so far, the latest first. -/
structure Growth where
  alternatives : List Alternative
  steps : List Step

namespace Growth

/-- The last alternative. -/
def last (g : Growth) : Alternative := g.alternatives.getLast?.getD []

/-- Add an alternative. -/
def add (g : Growth) (s : Step) (a : Alternative) : Growth := ⟨g.alternatives ++ [a], s :: g.steps⟩

/-- Replace the last alternative. -/
def replaceLast (g : Growth) (s : Step) (a : Alternative) : Growth :=
  ⟨g.alternatives.dropLast ++ [a], s :: g.steps⟩

/-- The last alternative without what the latest steps put there. -/
def unwound (g : Growth) : Alternative :=
  match g.steps with
  | s :: _ => if (s.changes.getD []).isEmpty then g.last else g.last.undoSteps s.depth g.steps
  | [] => g.last

/-- Attach the alternative of a condition at a depth. -/
def attach (g : Growth) (b : Branch) (parent : Option Branch) (depth : Nat) (a : Alternative) :
    Growth :=
  if parent = none then g.add ⟨parent, b, depth, none⟩ a
  else if parent = some .or && b != .or then
    g.add ⟨parent, b, depth, none⟩ (if 1 < depth then g.unwound.mergeInto a else a)
  else
    g.replaceLast ⟨parent, b, depth, some (a.map fun (field, v) => ⟨field, v⟩)⟩ (g.last.mergeInto a)

end Growth

end Verdict
