import Verdict.Engine.Task

/-!
# Engine/Draft — building rules piece by piece

A draft is the document of a rule to which roots are added one at a time.
-/

namespace Verdict

/-- The branch that a value names. -/
def Branch.ofValue (v : Value) : Except Failure Branch :=
  match v.text?.bind Branch.ofName? with
  | some b => .ok b
  | Option.none => (Failure.ofFault v.display).bind fun shown => .error (.notABranch shown)

/-- A condition without nodes.  Only a branch makes one; the name of a branch does not. -/
def Node.untyped (v : Value) : Except Failure Node :=
  (Failure.ofFault v.display).bind fun shown => .error (.untypedCondition shown)

/-- The name of a built-in operator that a value gives. -/
def Operator.builtInName (v : Value) : Except Failure String :=
  match v.text?.filter builtInNames.contains with
  | some name => .ok name
  | none => (Failure.ofFault v.display).bind fun shown => .error (.notAnOperator shown)

/-- A rule under construction. -/
structure Draft where
  conditions : List Value
  default : Option Value

namespace Draft

/-- A draft without roots. -/
def empty : Draft := ⟨[], none⟩

/-- The document of a constraint. -/
def constraint (field operator value : Value) : Value :=
  .ofFields [("field", field), ("operator", operator), ("value", value)]

/-- The document of a condition, with a result unless that is `null`. -/
def condition (type nodes result : Value) : Except Failure Value :=
  (Branch.ofValue type).map fun b =>
    .ofFields ((b.name, nodes) :: fieldUnlessNull "result" result)

/-- Add a root. -/
def add (d : Draft) (condition : Value) : Draft := { d with conditions := d.conditions ++ [condition] }

/-- Set the default. -/
def setDefault (d : Draft) (payload : Value) : Draft := { d with default := some payload }

/-- The document of the rule so far. -/
def toValue (d : Draft) : Value :=
  .ofFields (("conditions", .ofItems d.conditions) :: (d.default.map fun v => ("default", v)).toList)

/-- The document of the rule so far, which is checked first if that is wanted. -/
def build (r : Registry) (d : Draft) (validated : Bool) : Except Failure Value := do
  if validated then RuleSource.ensureValid r (.document d.toValue)
  .ok d.toValue

end Draft

end Verdict
