import Verdict.Introspection.Findings
import Verdict.Rule.Basic
import Verdict.Value.Equality

/-!
# Introspection/Usage — the operators of a rule

Any rule can be asked for its operators; it need not be granular.
-/

namespace Verdict.Rule

/-- The operators that are texts, each once, in the order of their first use. -/
def usedOperators (rule : Rule) : List String :=
  rule.constraints.foldl (fun used c =>
    match c.operator with
    | .str name => Findings.appendOnce used name
    | _ => used) []

/-- The operators that are not registered, each once. -/
def unknownOperators (r : Registry) (rule : Rule) : List Value :=
  rule.constraints.foldl (fun unknown c =>
    if r.has c.operator || unknown.any fun o => o.loosely c.operator then unknown
    else unknown ++ [c.operator]) []

/-- The document of a check of operators. -/
def operatorCheck (r : Registry) (rule : Rule) : Value :=
  let unknown := rule.unknownOperators r
  .ofFields [("isValid", .bool unknown.isEmpty), ("invalidOperators", .ofItems unknown)]

end Verdict.Rule
