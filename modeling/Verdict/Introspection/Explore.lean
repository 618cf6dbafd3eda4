import Verdict.Introspection.Findings
import Verdict.Introspection.Range
import Verdict.Rule.Written

/-!
# Introspection/Explore — from results back to inputs

Exploring a granular rule gives, for each of its results, the alternatives of inputs that lead to
it.  Roots with one result share a range.  Below a NONE every operator stands for its inverse.
-/

namespace Verdict

/-- The state of an exploration: the range at hand, and what was found. -/
structure Exploration where
  growth : Growth
  findings : Findings

namespace Exploration

/-- The operator of a constraint as it counts below a NONE or elsewhere, and what is found with
it. -/
def effective (r : Registry) (negated : Bool) (c : Constraint) (f : Findings) :
    Except Fault (Value × Findings) := do
  let field ← c.field.plain
  let operator? := r.find? c.operator
  let f := f.recordConstraint field operator?
  let operator ← c.operator.plain
  match operator? with
  | none =>
    .ok (c.operator, f.warn ("Unknown operator '" ++ operator ++ "' on field '" ++ field ++ "'"))
  | some _ =>
    if !negated then .ok (c.operator, f)
    else
      match r.negation? c.operator with
      | some inverse => .ok (.str inverse, f)
      | none =>
        .ok (c.operator, f.warn ("No negation registered for operator '" ++ operator ++
          "' on field '" ++ field ++ "'; kept as is"))

/-- The alternatives of the fields of a condition, each under its field. -/
abbrev ByField := List (Value × Alternative)

/-- The alternative of a field. -/
def ByField.find? (field : Value) : ByField → Option Alternative
  | [] => none
  | (f, a) :: rest => if f.loosely field then some a else find? field rest

/-- Set the alternative of a field. -/
def ByField.put (field : Value) (a : Alternative) : ByField → ByField
  | [] => [(field, a)]
  | (f, b) :: rest => if f.loosely field then (f, a) :: rest else (f, b) :: put field a rest

/-- Go through the constraints directly under a condition. -/
def collect (r : Registry) (b : Branch) (negated : Bool) :
    List Node → ByField → Findings → Except Fault (ByField × Findings)
  | [], sofar, f => .ok (sofar, f)
  | .constraint c :: rest, sofar, f => do
    let (operator, f) ← effective r negated c f
    let a ← ((sofar.find? c.field).getD []).withConstraint c operator b
    collect r b negated rest (sofar.put c.field a) f
  | _ :: rest, sofar, f => collect r b negated rest sofar f

/-- Attach an alternative; the step has to have a summary. -/
def attach (g : Growth) (b : Branch) (parent : Option Branch) (depth : Nat) (a : Alternative) :
    Except Fault Growth :=
  let g := g.attach b parent depth a
  match g.steps with
  | s :: _ => s.summary.map fun _ => g
  | [] => .ok g

/-- Attach alternatives one after another. -/
def attachAll (b : Branch) (parent : Option Branch) (depth : Nat) :
    List Alternative → Growth → Except Fault Growth
  | [], g => .ok g
  | a :: rest, g => do
    let g ← attach g b parent depth a
    attachAll b parent depth rest g

/-- The constraints directly under a condition: together under AND, else field by field. -/
def populate (r : Registry) (b : Branch) (parent : Option Branch) (depth : Nat) (negated : Bool)
    (nodes : List Node) (e : Exploration) : Except Fault Exploration := do
  let (byField, findings) ← collect r b negated nodes [] (e.findings.recordCondition depth)
  let alternatives := byField.map Prod.snd
  let growth ←
    attachAll b parent depth (if b = .and then [Alternative.merge alternatives] else alternatives)
      e.growth
  .ok ⟨growth, findings⟩

mutual

/-- Explore a condition and those below it. -/
def explore (r : Registry) (parent : Option Branch) (depth : Nat) (inNone : Bool) :
    Node → Exploration → Except Fault Exploration
  | .condition b nodes _, e => do
    let negated := inNone || b = .none
    let e ← populate r b parent depth negated nodes e
    exploreNodes r b (depth + 1) negated nodes e
  | .constraint _, e => .ok e
  | .invalid _, e => .ok e

/-- Explore the conditions among the nodes of a condition. -/
def exploreNodes (r : Registry) (parent : Branch) (depth : Nat) (inNone : Bool) :
    List Node → Exploration → Except Fault Exploration
  | [], e => .ok e
  | n :: rest, e => do
    let e ← explore r (some parent) depth inNone n e
    exploreNodes r parent depth inNone rest e

end

/-- Explore roots one after another. -/
def exploreRoots (r : Registry) : List Node → Exploration → Except Fault Exploration
  | [], e => .ok e
  | n :: rest, e => do
    let e ← explore r none 0 false n e
    exploreRoots r rest e

end Exploration

/-- The alternatives of one result. -/
structure CriteriaRange where
  outcome : Outcome
  alternatives : List Alternative

/-- The document of a range. -/
def CriteriaRange.toValue (c : CriteriaRange) : Except Fault Value := do
  let options ← c.alternatives.mapM Alternative.toValue
  .ok (.ofFields [("result", c.outcome.toValue), ("options", .ofItems options)])

/-- What introspection comes to. -/
structure Introspection where
  ranges : List CriteriaRange
  default : Option Outcome
  findings : Findings

namespace Introspection

/-- The outcomes of roots, each once, in order. -/
def outcomes (roots : List Node) : List Outcome :=
  (roots.filterMap Node.outcome?).foldl (fun seen o =>
    if seen.any fun s => s.origin == o.origin then seen else seen ++ [o]) []

/-- The roots that carry an outcome. -/
def rootsOf (roots : List Node) (o : Outcome) : List Node :=
  roots.filter fun n => n.outcome?.any fun m => m.origin == o.origin

/-- The ranges of outcomes, one after another; steps and findings go on from range to range. -/
def rangesOf (r : Registry) (roots : List Node) :
    List Outcome → List Step → Findings → Except Fault (List CriteriaRange × Findings)
  | [], _, f => .ok ([], f)
  | o :: rest, steps, f => do
    let e ← Exploration.exploreRoots r (rootsOf roots o) ⟨⟨[], steps⟩, f⟩
    let (later, f) ← rangesOf r roots rest e.growth.steps e.findings
    .ok (⟨o, e.growth.alternatives⟩ :: later, f)

/-- Introspect a granular rule. -/
def ofRule (r : Registry) (rule : Rule) : Except Fault Introspection := do
  let (ranges, findings) ← rangesOf r rule.conditions (outcomes rule.conditions) [] .empty
  .ok ⟨ranges, rule.default, findings⟩

/-- What is said of a rule that is not granular. -/
def notGranular : String :=
  "The provided rule is not granular. A granular rule is required for Introspection"

/-- The document of an introspection, with metadata and complexity where they are wanted. -/
def toValue (i : Introspection) (metadata complexity : Bool) : Except Fault Value := do
  let ranges ← i.ranges.mapM CriteriaRange.toValue
  .ok (.ofFields ([("results", .ofItems ranges)] ++ Outcome.toField "default" i.default ++
    (if metadata then [("metadata", i.findings.metadata)] else []) ++
    (if complexity then [("complexity", i.findings.complexity)] else []) ++
    (if i.findings.warnings.isEmpty then []
      else [("warnings", Findings.texts i.findings.warnings)])))

end Introspection

end Verdict
