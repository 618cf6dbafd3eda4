import Verdict.Rule.Basic

/-!
# Rule/Measure — how large rules are, and what stands under a NONE

* `Node.conditionCount`, `Node.height` — the conditions of a node, and how deeply they are nested.
* `Node.polarities` — its constraints in document order, each with whether a NONE stands above it.
  `Node.polarities_snd` says that these are the constraints of the node.
-/

namespace Verdict.Node

mutual

/-- The number of conditions of a node. -/
def conditionCount : Node → Nat
  | .condition _ nodes _ => conditionCounts nodes + 1
  | .constraint _ => 0
  | .invalid _ => 0

/-- The number of conditions of nodes. -/
def conditionCounts : List Node → Nat
  | [] => 0
  | n :: rest => conditionCount n + conditionCounts rest

end

mutual

/-- The number of conditions on the longest way down from a node. -/
def height : Node → Nat
  | .condition _ nodes _ => heights nodes + 1
  | .constraint _ => 0
  | .invalid _ => 0

/-- The height of the highest of nodes. -/
def heights : List Node → Nat
  | [] => 0
  | n :: rest => max (height n) (heights rest)

end

mutual

/-- The constraints of a node, each with whether it stands under a NONE.  The node itself may. -/
def polarities (inNone : Bool) : Node → List (Bool × Constraint)
  | .condition b nodes _ => polaritiesOf (inNone || b = .none) nodes
  | .constraint c => [(inNone, c)]
  | .invalid _ => []

/-- The constraints of nodes, each with whether it stands under a NONE. -/
def polaritiesOf (inNone : Bool) : List Node → List (Bool × Constraint)
  | [] => []
  | n :: rest => polarities inNone n ++ polaritiesOf inNone rest

end

mutual

theorem polarities_snd (inNone : Bool) :
    ∀ n : Node, (n.polarities inNone).map Prod.snd = n.constraints
  | .condition b nodes _ => by
    simpa [polarities, constraints] using polaritiesOf_snd (inNone || b = .none) nodes
  | .constraint _ => by simp [polarities, constraints]
  | .invalid _ => by simp [polarities, constraints]

theorem polaritiesOf_snd (inNone : Bool) :
    ∀ nodes : List Node, (polaritiesOf inNone nodes).map Prod.snd = constraintsOf nodes
  | [] => by simp [polaritiesOf, constraintsOf]
  | n :: rest => by
    simp [polaritiesOf, constraintsOf, polarities_snd inNone n, polaritiesOf_snd inNone rest]

end

end Verdict.Node
