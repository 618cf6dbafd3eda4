import Verdict.Mutation.Mutator
import Verdict.Path.Update

/-!
# Mutation/Desk — working copies and runs

Mutating changes copies of the criteria.  Each field of each copy is looked up first: a kept result
is put in at once, a field whose key is already being worked on waits for that **run**, and any
other field starts one.  So no key starts two runs.

Containers of copies, of kept results and of results on the way may be the same; a write shows in
all of them.
-/

namespace Verdict

/-- A copy of criteria, for one of the calls that are mutated together. -/
structure WorkingCopy where
  call : Nat
  value : Value

/-- A run of a transform. -/
structure Run where
  key : CacheKey
  transform : Transform
  /-- The copy whose field started the run, and after it those whose fields wait for it. -/
  copies : List Nat
  input : Value
  /-- None until the transform is applied. -/
  outcome : Option (Except Fault Value)

/-- The path of the field that a run changes. -/
def Run.name (r : Run) : String := r.key.1

/-- What is being worked on. -/
structure Desk where
  copies : List WorkingCopy
  runs : List Run
  cache : List (CacheKey × Value)
  nextMark : Nat
  /-- The first fault of each call that failed. -/
  faults : List (Nat × Fault)

namespace Desk

/-- Let a call fail, unless it did before. -/
def fail (d : Desk) (call : Nat) (f : Fault) : Desk :=
  if Entries.has call d.faults then d else { d with faults := Entries.put call f d.faults }

/-- Let a write into a copy show everywhere. -/
def apply (d : Desk) (i : Nat) (w : Write) : Desk :=
  { d with
    copies := d.copies.mapIdx fun j c =>
      { c with value := if j = i then w.applyTo c.value else w.applyElsewhere c.value }
    runs := d.runs.map fun r =>
      { r with
        input := w.applyElsewhere r.input
        outcome := r.outcome.map fun o => o.map w.applyElsewhere }
    cache := d.cache.map fun (k, v) => (k, w.applyElsewhere v) }

/-- Put a value at a path of a copy, if the path leads to a place there. -/
def put (d : Desk) (i : Nat) (name : String) (v : Value) : Desk :=
  match d.copies[i]? with
  | none => d
  | some c =>
    match Path.write? name c.value v with
    | .ok (some w) => d.apply i w
    | _ => d

/-- Let a copy wait for the run of a key; none when there is no such run. -/
def join? (i : Nat) (key : CacheKey) : List Run → Option (List Run)
  | [] => none
  | r :: rest =>
    if r.key = key then some ({ r with copies := r.copies ++ [i] } :: rest)
    else (join? i key rest).map (r :: ·)

/-- Look up the field of a transform in a copy. -/
def lookUp (d : Desk) (i : Nat) (name : String) (t : Transform) : Desk :=
  match d.copies[i]? with
  | none => d
  | some c =>
    match Path.resolve name c.value with
    | .error f => d.fail c.call f
    | .ok none => d
    | .ok (some v) =>
      match cacheKey name v with
      | .error f => d.fail c.call f
      | .ok key =>
        match Entries.find? key d.cache with
        | some kept => d.put i name kept
        | none =>
          match join? i key d.runs with
          | some runs => { d with runs }
          | none => { d with runs := d.runs ++ [⟨key, t, [i], v, none⟩] }

/-- Look up all fields of all copies, copy by copy. -/
def lookUpAll (d : Desk) (transforms : List (String × Transform)) : Desk :=
  (List.range d.copies.length).foldl (fun d i =>
    transforms.foldl (fun d (name, t) => d.lookUp i name t) d) d

/-- Apply the transform of a run, to its input and the copy that started it as they are now. -/
def compute (d : Desk) (j : Nat) : Desk :=
  match d.runs[j]? with
  | none => d
  | some r =>
    let criteria := ((r.copies.head?.bind fun i => d.copies[i]?).map WorkingCopy.value).getD .null
    match r.transform.apply r.input criteria with
    | .error f => { d with runs := d.runs.set j { r with outcome := some (.error f) } }
    | .ok v =>
      let (v, next) := v.settled d.nextMark
      { d with runs := d.runs.set j { r with outcome := some (.ok v) }, nextMark := next }

/-- Hand the outcome of a run to a copy. -/
def hand (d : Desk) (j i : Nat) : Desk :=
  match d.runs[j]? with
  | none => d
  | some r =>
    match r.outcome with
    | some (.ok v) => d.put i r.name v
    | some (.error f) => ((d.copies[i]?).map fun c => d.fail c.call f).getD d
    | none => d

/-- Keep the result of a run. -/
def keep (d : Desk) (j : Nat) : Desk :=
  match d.runs[j]? with
  | some ⟨key, _, _, _, some (.ok v)⟩ => { d with cache := Entries.put key v d.cache }
  | _ => d

/-- Deliver the outcome of a run: it is kept where results are kept, and handed to all copies. -/
def deliver (caching : Bool) (d : Desk) (j : Nat) : Desk :=
  match d.runs[j]? with
  | none => d
  | some r => r.copies.foldl (fun d i => d.hand j i) (if caching then d.keep j else d)

end Desk

end Verdict
