import Verdict.Engine.Draft
import Verdict.Engine.Source
import Verdict.Mutation.Mutate

/-!
# Engine/Engine — operators, transforms and trust together

An engine checks a rule before it evaluates it, unless the rule is trusted, and mutates the criteria
first.  Rules that are evaluated together share the runs of transforms.
-/

namespace Verdict

/-- An engine. -/
structure Engine where
  registry : Registry
  /-- Whether rules are trusted unless something else is said. -/
  trusts : Bool
  mutator : Mutator

/-- A rule as it is handed to an engine. -/
inductive RuleInput where
  /-- To be read first. -/
  | loadable (s : Source)
  | ready (s : RuleSource)

/-- The rule that is handed in. -/
def RuleInput.load : RuleInput → Except Failure RuleSource
  | .loadable s => s.readRule.map .document
  | .ready s => .ok s

/-- Whether criteria are mutated in rounds, rather than handed back at once. -/
def Mutator.takesRounds (m : Mutator) (criteria : Value) : Bool :=
  match criteria with
  | .list _ items => !items.isEmpty
  | v =>
    match m.needsCopy v with
    | .ok needs => needs
    | .error _ => false

namespace Engine

/-- Load a rule, and check it unless it is trusted. -/
def accept (e : Engine) (trust : Option Bool) (input : RuleInput) : Except Failure RuleSource := do
  let s ← input.load
  if !trust.getD e.trusts then s.ensureValid e.registry
  .ok s

/-- Evaluate a rule against criteria whose mutation came to something. -/
def evaluateMutated (e : Engine) (s : RuleSource) (criteria : Except Fault Mutated) :
    Except Failure Evaluated := do
  let criteria ← Failure.ofFault criteria
  s.evaluate e.registry criteria.value

/-- Evaluate a rule: what comes of it, the engine afterwards, and the transforms that started. -/
def evaluate (e : Engine) (trust : Option Bool) (input : RuleInput) (criteria : Value) :
    Except Failure Evaluated × Engine × List Start :=
  match e.accept trust input with
  | .error f => (.error f, e, [])
  | .ok s =>
    let (mutated, mutator, starts) := e.mutator.mutate criteria
    (e.evaluateMutated s mutated, { e with mutator }, starts)

/-- The sources among rules of which some were not accepted. -/
def accepted (rules : List (Except Failure RuleSource)) : List RuleSource :=
  rules.filterMap fun
    | .ok s => some s
    | .error _ => none

/-- Give each rule that was accepted the next of the outcomes, in order. -/
def distribute : List (Except Failure RuleSource) → List (Except Failure Evaluated) →
    List (Except Failure Evaluated)
  | [], _ => []
  | .error f :: rules, outcomes => .error f :: distribute rules outcomes
  | .ok _ :: rules, outcome :: outcomes => outcome :: distribute rules outcomes
  | .ok _ :: _, [] => []

/-- Evaluate rules together against the same criteria.  The first rule that fails decides; where
criteria are mutated in rounds, a rule that is not accepted fails before all others. -/
def evaluateAll (e : Engine) (trust : Option Bool) (inputs : List RuleInput) (criteria : Value) :
    Except Failure (List Evaluated) × Engine × List Start :=
  let rules := inputs.map (e.accept trust)
  let sources := accepted rules
  let (mutated, mutator, starts) := e.mutator.run (sources.map fun _ => criteria)
  let outcomes := distribute rules ((sources.zip mutated).map fun (s, m) => e.evaluateMutated s m)
  let refused := if e.mutator.takesRounds criteria then rules.mapM id |>.map fun _ => () else .ok ()
  (refused.bind fun _ => outcomes.mapM id, { e with mutator }, starts)

/-- Introspect a rule, which is checked first. -/
def introspect (e : Engine) (input : RuleInput) : Except Failure Introspection := do
  let s ← e.accept (some false) input
  s.introspect e.registry

/-- The first problem of a rule. -/
def validate (e : Engine) (input : RuleInput) : Except Failure (Option Problem) := do
  let s ← input.load
  s.validate e.registry

/-- The operators that a rule uses. -/
def usedOperators (input : RuleInput) : Except Failure (List String) := do
  let s ← input.load
  s.usedOperators

/-- The check of the operators that a rule uses. -/
def operatorCheck (e : Engine) (input : RuleInput) : Except Failure Value := do
  let s ← input.load
  s.operatorCheck e.registry

/-- The descriptions of the operators of a category, or of all. -/
def operators (e : Engine) (category : Option String) : List Value :=
  match category with
  | none => e.registry.describeAll
  | some c => e.registry.describeCategory c

/-- Register a transform. -/
def addTransform (e : Engine) (name : String) (t : Option Transform) : Except Fault Unit × Engine :=
  let (r, mutator) := e.mutator.addEach [(name, t)]
  (r, { e with mutator })

/-- Unregister a transform and drop its results. -/
def removeTransform (e : Engine) (name : Value) : Except Fault Unit × Engine :=
  let (r, mutator) := e.mutator.removeValue name
  (r, { e with mutator })

/-- Drop the results of a name, `null` standing for all names. -/
def forgetResults (e : Engine) (name : Value) : Engine :=
  { e with mutator := e.mutator.forgetValue name }

/-- The checked document of a rule with one root. -/
def build (e : Engine) (root : Value) : Except Failure Value :=
  (Draft.empty.add root).build e.registry true

end Engine

end Verdict
