import Verdict.Mutation.Desk

/-!
# Mutation/Mutate — mutating criteria

Mutation goes in rounds.  A transform that pauses so many times is applied in the round of that
number, and its outcome is delivered in the next one; within a round, runs come in the order in which
they were started.  A call fails with the first fault that is delivered to one of its items, and the
runs go on all the same.
-/

namespace Verdict

/-- What happens to a run. -/
inductive Event where
  | compute (j : Nat)
  | deliver (j : Nat)
  deriving DecidableEq, Repr

namespace Event

/-- The events of a round, for runs with the given pauses, numbered from a first one on. -/
def ofRound (round : Nat) : Nat → List Nat → List Event
  | _, [] => []
  | j, pauses :: rest =>
    (if pauses = round then [.compute j] else if pauses + 1 = round then [.deliver j] else []) ++
    ofRound round (j + 1) rest

/-- All events of runs with the given pauses, in order. -/
def agenda (pauses : List Nat) : List Event :=
  (List.range (pauses.foldl max 0 + 2)).flatMap fun round => ofRound round 0 pauses

end Event

/-- Let an event happen. -/
def Desk.step (caching : Bool) (d : Desk) : Event → Desk
  | .compute j => d.compute j
  | .deliver j => d.deliver caching j

/-- Let all runs come to their end. -/
def Desk.finish (caching : Bool) (d : Desk) : Desk :=
  (Event.agenda (d.runs.map fun r => r.transform.pauses)).foldl (Desk.step caching) d

/-- One criteria object of a call. -/
structure CriteriaSlot where
  given : Value
  /-- Its working copy, if it has one. -/
  copy? : Option Nat

/-- One call: criteria, or a list of criteria. -/
structure MutationCall where
  isList : Bool
  items : List CriteriaSlot

/-- Mutated criteria. -/
structure Mutated where
  value : Value
  /-- Whether they are the criteria that came in, and no copy. -/
  isSame : Bool

/-- A start of a transform: its name, and its input. -/
structure Start where
  name : String
  input : Value

namespace Mutator

/-- Whether criteria need a working copy: they are an object with a field to change. -/
def needsCopy (m : Mutator) (criteria : Value) : Except Fault Bool :=
  match criteria with
  | .object .. => m.hasWork criteria
  | _ => .ok false

/-- Put criteria on the desk. -/
def place (m : Mutator) (call : Nat) (d : Desk) (criteria : Value) : Desk × CriteriaSlot :=
  match m.needsCopy criteria with
  | .error f => (d.fail call f, ⟨criteria, none⟩)
  | .ok false => (d, ⟨criteria, none⟩)
  | .ok true =>
    let (copy, next) := criteria.copied d.nextMark
    ({ d with copies := d.copies ++ [⟨call, copy⟩], nextMark := next },
      ⟨criteria, some d.copies.length⟩)

/-- Put the criteria of a list on the desk. -/
def placeItems (m : Mutator) (call : Nat) (d : Desk) : List Value → Desk × List CriteriaSlot
  | [] => (d, [])
  | v :: rest =>
    let (d, slot) := m.place call d v
    let (d, slots) := placeItems m call d rest
    (d, slot :: slots)

/-- Put the criteria of a call on the desk. -/
def placeCall (m : Mutator) (call : Nat) (d : Desk) (criteria : Value) : Desk × MutationCall :=
  match criteria with
  | .list _ items =>
    let (d, slots) := m.placeItems call d items
    (d, ⟨true, slots⟩)
  | v =>
    let (d, slot) := m.place call d v
    (d, ⟨false, [slot]⟩)

/-- Put the criteria of calls on the desk, numbered from a first one on. -/
def placeCalls (m : Mutator) : Nat → Desk → List Value → Desk × List MutationCall
  | _, d, [] => (d, [])
  | n, d, v :: rest =>
    let (d, call) := m.placeCall n d v
    let (d, calls) := placeCalls m (n + 1) d rest
    (d, call :: calls)

/-- What a desk holds for criteria. -/
def result (d : Desk) (s : CriteriaSlot) : Value :=
  match s.copy?.bind fun i => d.copies[i]? with
  | some c => c.value.unmarked
  | none => s.given

/-- What comes of a call. -/
def outcome (d : Desk) (n : Nat) (call : MutationCall) : Except Fault Mutated :=
  match Entries.find? n d.faults with
  | some f => .error f
  | none =>
    let values := call.items.map (result d)
    .ok <|
      if call.isList then ⟨.ofItems values, false⟩
      else ⟨values.headD .null, call.items.all fun s => s.copy?.isNone⟩

/-- Mutate the criteria of several calls together: what comes of each call, the mutator afterwards,
and the transforms that were started. -/
def run (m : Mutator) (calls : List Value) :
    List (Except Fault Mutated) × Mutator × List Start :=
  let (d, placed) := m.placeCalls 0 ⟨[], [], m.cache, m.nextMark, []⟩ calls
  let d := d.lookUpAll m.transforms
  let starts := d.runs.map fun r => ⟨r.name, r.input⟩
  let d := d.finish m.caching
  (placed.mapIdx (outcome d), { m with cache := d.cache, nextMark := d.nextMark }, starts)

/-- Mutate criteria, or each item of a list of criteria. -/
def mutate (m : Mutator) (criteria : Value) : Except Fault Mutated × Mutator × List Start :=
  let (results, m, starts) := m.run [criteria]
  (results.headD (.ok ⟨criteria, true⟩), m, starts)

end Mutator

end Verdict
