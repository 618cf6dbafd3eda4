import Verdict.Digest
import Verdict.Mutation.Transform
import Verdict.Value.Display

/-!
# Mutation/Mutator — registered transforms and their cache

A mutator holds transforms by the paths of the fields that they change, and the results of earlier
runs.  A result is kept under the name of its transform and a digest of the value that went in.
-/

namespace Verdict

/-- What a result is kept under: the name of the transform, and a digest of its input. -/
abbrev CacheKey := String × String

/-- The key of an input. -/
def cacheKey (name : String) (v : Value) : Except Fault CacheKey :=
  v.plain.map fun s => (name, Digest.ofText s)

/-- Transforms and the results of earlier runs. -/
structure Mutator where
  transforms : List (String × Transform)
  caching : Bool
  cache : List (CacheKey × Value)
  /-- The next free mark for copies. -/
  nextMark : Nat

namespace Mutator

/-- A mutator without transforms. -/
def empty (caching : Bool) : Mutator := ⟨[], caching, [], 0⟩

/-- The names of the transforms, in order of registration. -/
def names (m : Mutator) : List String := m.transforms.map Prod.fst

/-- The number of transforms. -/
def size (m : Mutator) : Nat := m.transforms.length

/-- Register a transform.  Results that are kept under its name stay. -/
def add (m : Mutator) (name : String) (t : Transform) : Mutator :=
  { m with transforms := Entries.put name t m.transforms }

/-- Drop the results that are kept under a name. -/
def forget (m : Mutator) (name : String) : Mutator :=
  { m with cache := m.cache.filter fun e => e.1.1 ≠ name }

/-- Drop all results. -/
def forgetAll (m : Mutator) : Mutator := { m with cache := [] }

/-- Unregister a transform and drop its results. -/
def remove (m : Mutator) (name : String) : Mutator :=
  let m := m.forget name
  { m with transforms := Entries.without name m.transforms }

/-- Unregister all transforms and drop all results. -/
def removeAll (m : Mutator) : Mutator := { m with transforms := [], cache := [] }

/-- Drop the results of a name given as a value: `null` stands for all names. -/
def forgetValue (m : Mutator) (name : Value) : Mutator :=
  match name with
  | .null => m.forgetAll
  | .str name => m.forget name
  | _ => m

/-- Register transforms one after another; an entry without a transform stops with a fault, and what
was registered before it stays. -/
def addEach (m : Mutator) : List (String × Option Transform) → Except Fault Unit × Mutator
  | [] => (.ok (), m)
  | (_, none) :: _ => (.error .wrongKind, m)
  | (name, some t) :: rest => addEach (m.add name t) rest

/-- Unregister transforms one after another.  A list or an object is no name, and stops with a fault;
`null` drops all results. -/
def removeEach (m : Mutator) : List Value → Except Fault Unit × Mutator
  | [] => (.ok (), m)
  | .str name :: rest => removeEach (m.remove name) rest
  | .list .. :: _ => (.error .wrongKind, m)
  | .object .. :: _ => (.error .wrongKind, m)
  | v :: rest => removeEach (m.forgetValue v) rest

/-- Unregister one name or the names of a list. -/
def removeValue (m : Mutator) (names : Value) : Except Fault Unit × Mutator :=
  match names with
  | .str name => m.removeEach [.str name]
  | .list _ items => m.removeEach items
  | .object _ fields => m.removeEach (fields.map fun (k, _) => .str k)
  | _ => (.error .wrongKind, m)

/-- Whether a name is registered.  Lists and objects cannot be names. -/
def contains (m : Mutator) (name : Value) : Except Fault Bool :=
  match name with
  | .str name => .ok (Entries.has name m.transforms)
  | .list .. | .object .. => .error .wrongKind
  | _ => .ok false

/-- Whether some path leads somewhere in the criteria. -/
def leadsSomewhere (criteria : Value) : List String → Except Fault Bool
  | [] => .ok false
  | name :: rest =>
    match Path.resolve name criteria with
    | .error f => .error f
    | .ok (some _) => .ok true
    | .ok none => leadsSomewhere criteria rest

/-- Whether some transform has a field to change in the criteria. -/
def hasWork (m : Mutator) (criteria : Value) : Except Fault Bool := leadsSomewhere criteria m.names

end Mutator

end Verdict
