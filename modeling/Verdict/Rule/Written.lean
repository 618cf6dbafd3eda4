import Verdict.Rule.Basic
import Verdict.Value.Display

/-!
# Rule/Written — rules as documents and in one line

`toValue` writes a rule so that reading gives it back, apart from where its outcomes come from.
`display` writes it in one line, for people.
-/

namespace Verdict

/-- A field that is left out when it is `null`. -/
def fieldUnlessNull (name : String) (v : Value) : List (String × Value) :=
  if v.isNull then [] else [(name, v)]

/-- The document of an outcome. -/
def Outcome.toValue (o : Outcome) : Value :=
  .ofFields (("value", o.value) :: fieldUnlessNull "message" o.message)

/-- The document of a constraint. -/
def Constraint.toValue (c : Constraint) : Value :=
  .ofFields ([("field", c.field), ("operator", c.operator)] ++
    (c.value?.map fun v => ("value", v)).toList ++ fieldUnlessNull "message" c.message)

/-- An optional outcome as a field. -/
def Outcome.toField (name : String) (o : Option Outcome) : List (String × Value) :=
  (o.map fun o => (name, o.toValue)).toList

namespace Node

mutual

/-- The document of a node. -/
def toValue : Node → Value
  | .condition b nodes outcome =>
    .ofFields ((b.name, .ofItems (toValues nodes)) :: Outcome.toField "result" outcome)
  | .constraint c => c.toValue
  | .invalid raw => raw

/-- The documents of nodes. -/
def toValues : List Node → List Value
  | [] => []
  | n :: rest => toValue n :: toValues rest

end

end Node

/-- The document of a rule. -/
def Rule.toValue (r : Rule) : Value :=
  .ofFields (("conditions", .ofItems (Node.toValues r.conditions)) ::
    Outcome.toField "default" r.default)

/-! ## One line -/

/-- An outcome in one line. -/
def Outcome.display (o : Outcome) : Except Fault String := do
  let value ← o.value.display
  if o.message.isNull then .ok ("Result(" ++ value ++ ")")
  else
    let message ← o.message.display
    .ok ("Result(" ++ value ++ ", " ++ message ++ ")")

/-- A constraint in one line. -/
def Constraint.display (c : Constraint) : Except Fault String := do
  let field ← c.field.plain
  let operator ← c.operator.plain
  let value ← c.value.display
  .ok (field ++ " " ++ operator ++ " " ++ value)

namespace Node

mutual

/-- A node in one line. -/
def display : Node → Except Fault String
  | .condition b nodes _ => do
    let parts ← displays nodes
    .ok (b.capitals ++ "(" ++ ", ".intercalate parts ++ ")")
  | .constraint c => c.display
  | .invalid raw => do
    let shown ← raw.display
    .ok ("Invalid(" ++ shown ++ ")")

/-- Nodes, one by one. -/
def displays : List Node → Except Fault (List String)
  | [] => .ok []
  | n :: rest => do
    let text ← display n
    let texts ← displays rest
    .ok (text :: texts)

end

end Node

/-- A rule in one line. -/
def Rule.display (r : Rule) : Except Fault String := do
  let roots ← Node.displays r.conditions
  let default ← r.default.elim (.ok "None") Outcome.display
  .ok ("Rule([" ++ ", ".intercalate roots ++ "], default=" ++ default ++ ")")

end Verdict
