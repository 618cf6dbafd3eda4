import Verdict.Path.Segment
import Verdict.Value.Basic

/-!
# Path/Resolve — what a path leads to

A path leads from a value to any number of places, at most one when it holds no wildcard.  A path
with a dollar sign starts at the value; any other is first tried as the name of a field.
-/

namespace Verdict

namespace Segment

/-- The position of an index among so many items. -/
def position? (size : Nat) (i : Int) : Option Nat :=
  if 0 ≤ i then (if i < size then some i.toNat else none)
  else if -i ≤ size then some (size + i).toNat
  else none

/-- The values that one segment leads to. -/
def step : Segment → Value → List Value
  | .key name, v => (v.get? name).toList
  | .index i, .list _ items => ((position? items.length i).bind fun n => items[n]?).toList
  | .every, .list _ items => items
  | .every, .object _ fields => fields.map Prod.snd
  | _, _ => []

/-- The values that segments lead to, one after another. -/
def walk (segments : List Segment) (root : Value) : List Value :=
  segments.foldl (fun values segment => values.flatMap segment.step) [root]

/-- Whether segments hold a wildcard. -/
def hasWildcard (segments : List Segment) : Bool := segments.contains .every

/-- What segments lead to as one value: with a wildcard the list of all values, unless it is one. -/
def resolve (segments : List Segment) (root : Value) : Option Value :=
  match walk segments root with
  | [] => none
  | [v] => some v
  | v :: rest => some (if hasWildcard segments then .ofItems (v :: rest) else v)

end Segment

namespace Path

/-- A path that starts at the value. -/
def isRooted (path : String) : Bool := path.toList.head? == some '$'

/-- The segments of a path; none when it is not a path. -/
def segments (path : String) : Except Fault (Option (List Segment)) :=
  Segment.ofChars (if isRooted path then path.toList.drop 1 else path.toList)

/-- The field that a path names literally. -/
def literal? (path : String) (root : Value) : Option Value :=
  if isRooted path then none else root.get? path

/-- What a path leads to; none when it leads nowhere. -/
def resolve (path : String) (root : Value) : Except Fault (Option Value) :=
  match literal? path root with
  | some v => .ok (some v)
  | none =>
    match segments path with
    | .error f => .error f
    | .ok none => .ok none
    | .ok (some ss) => .ok (Segment.resolve ss root)

/-- What a path given as a value leads to; only texts are paths. -/
def resolveValue (path : Value) (root : Value) : Except Fault (Option Value) :=
  match path with
  | .str path => resolve path root
  | _ => .ok none

end Path

theorem Segment.walk_nil (root : Value) : Segment.walk [] root = [root] := rfl

theorem Segment.walk_append (ss ts : List Segment) (root : Value) :
    walk (ss ++ ts) root = ts.foldl (fun values s => values.flatMap s.step) (walk ss root) := by
  simp [walk, List.foldl_append]

end Verdict
