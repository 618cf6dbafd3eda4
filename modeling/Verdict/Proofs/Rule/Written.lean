import Verdict.Proofs.Validation.Sound
import Verdict.Rule.Written

/-!
# Proofs/Rule/Written — written rules are valid and read back

    Node ── toValue ──▸ Value ── ofValue ──▸ Node      (outcomes placed where they are read)

A node is **proper** when nothing in it is invalid, and **legible** when what is invalid is invalid
wherever it is read.  Legible nodes come back from their documents as they were, with each outcome at
its place (`Node.ofValue_toValue`), and the document of a rule of proper conditions has no problem
unless a constraint has one (`Rule.validate_toValue`).  Roots that
share a result object are written with that object in each of them (`Rule.sharing`).
-/

namespace Verdict

/-! ## Documents -/

theorem getOrNull_fieldUnlessNull (name : String) (v : Value) :
    (Value.ofFields (fieldUnlessNull name v)).getOrNull name = v := by
  unfold fieldUnlessNull
  split
  · next h =>
    cases v with
    | null => rfl
    | _ => cases h
  · simp [Value.ofFields, Value.getOrNull, Value.get?, Entries.find?]

namespace Constraint

variable (c : Constraint)

theorem getOrNull_field_toValue : c.toValue.getOrNull "field" = c.field := rfl

theorem getOrNull_operator_toValue : c.toValue.getOrNull "operator" = c.operator := rfl

theorem get?_value_toValue : c.toValue.get? "value" = c.value? := by
  obtain ⟨field, operator, value?, message⟩ := c
  cases value? with
  | none =>
    change (Value.ofFields (fieldUnlessNull "message" message)).get? "value" = none
    unfold fieldUnlessNull
    split <;> rfl
  | some v => rfl

theorem getOrNull_message_toValue : c.toValue.getOrNull "message" = c.message := by
  obtain ⟨field, operator, value?, message⟩ := c
  have h := getOrNull_fieldUnlessNull "message" message
  cases value? <;> exact h

theorem ofValue_toValue : ofValue c.toValue = c := by
  rw [ofValue, getOrNull_field_toValue, getOrNull_operator_toValue, get?_value_toValue,
    getOrNull_message_toValue]

end Constraint

/-- An outcome as it is read at an origin. -/
def Outcome.placed (origin : Origin) (o : Outcome) : Outcome := { o with origin := origin }

theorem Outcome.ofValue?_toValue (origin : Origin) (o : Outcome) :
    ofValue? origin o.toValue = some (o.placed origin) :=
  congrArg (fun message => some (Outcome.mk origin o.value message))
    (getOrNull_fieldUnlessNull "message" o.message)

namespace Node

variable {b : Branch} {nodes : List Node} {outcome : Option Outcome}

theorem isConstraint_toValue : (condition b nodes outcome).toValue.isConstraint = false := by
  rw [toValue]
  cases b <;> cases outcome <;> rfl

theorem branch?_toValue : (condition b nodes outcome).toValue.branch? = some b := by
  rw [toValue]
  cases b <;> cases outcome <;> rfl

theorem get?_toValue :
    (condition b nodes outcome).toValue.get? b.name = some (.list none (toValues nodes)) := by
  rw [toValue]
  cases b <;> rfl

theorem getOrNull_result_toValue : (condition b nodes outcome).toValue.getOrNull "result" =
    outcome.elim .null Outcome.toValue := by
  rw [toValue]
  cases b <;> cases outcome <;> rfl

/-! ## Reading back -/

mutual

/-- A node as it is read at a place. -/
def placed (place : List Nat) : Node → Node
  | .condition b nodes outcome =>
    .condition b (placedAll place 0 nodes) (outcome.map (Outcome.placed (.place place)))
  | .constraint c => .constraint c
  | .invalid raw => .invalid raw

/-- Nodes as they are read from a position on. -/
def placedAll (place : List Nat) (position : Nat) : List Node → List Node
  | [] => []
  | n :: rest => placed (position :: place) n :: placedAll place (position + 1) rest

end

mutual

/-- Whether nothing in a node is invalid. -/
def isProper : Node → Bool
  | .condition _ nodes _ => areProper nodes
  | .constraint _ => true
  | .invalid _ => false

/-- Whether nothing in nodes is invalid. -/
def areProper : List Node → Bool
  | [] => true
  | n :: rest => isProper n && areProper rest

end

mutual

/-- Whether what is invalid in a node is invalid wherever it is read. -/
def IsLegible : Node → Prop
  | .condition _ nodes _ => AreLegible nodes
  | .constraint _ => True
  | .invalid raw => ∀ place, ofValue place raw = .invalid raw

/-- Whether what is invalid in nodes is invalid wherever it is read. -/
def AreLegible : List Node → Prop
  | [] => True
  | n :: rest => IsLegible n ∧ AreLegible rest

end

mutual

theorem isLegible_of_isProper : ∀ {n : Node}, n.isProper = true → n.IsLegible
  | .condition b nodes outcome, h => by
    rw [isProper] at h
    rw [IsLegible]
    exact areLegible_of_areProper h
  | .constraint c, _ => by
    rw [IsLegible]
    trivial
  | .invalid raw, h => by
    rw [isProper] at h
    cases h

theorem areLegible_of_areProper : ∀ {nodes : List Node}, areProper nodes = true → AreLegible nodes
  | [], _ => by
    rw [AreLegible]
    trivial
  | n :: rest, h => by
    rw [areProper, Bool.and_eq_true] at h
    rw [AreLegible]
    exact ⟨isLegible_of_isProper h.1, areLegible_of_areProper h.2⟩

end

mutual

/-- **A legible node is read back from its document.** -/
theorem ofValue_toValue (place : List Nat) : ∀ {n : Node}, n.IsLegible →
    ofValue place n.toValue = n.placed place
  | .condition b nodes outcome, h => by
    rw [IsLegible] at h
    have houtcome : Outcome.ofValue? (.place place) (outcome.elim .null Outcome.toValue) =
        outcome.map (Outcome.placed (.place place)) := by
      cases outcome with
      | none => rfl
      | some o => exact o.ofValue?_toValue _
    rw [Validator.ofValue_eq_condition (by rw [isConstraint_toValue]; nofun) branch?_toValue
      get?_toValue, getOrNull_result_toValue, houtcome, placed, ofItems_toValues place 0 h]
  | .constraint c, _ => by
    rw [toValue, ofValue, if_pos (by rfl), c.ofValue_toValue, placed]
  | .invalid raw, h => by
    rw [IsLegible] at h
    rw [toValue, placed, h]

/-- Nodes that were written are read in their places. -/
theorem ofItems_toValues (place : List Nat) (position : Nat) : ∀ {nodes : List Node},
    AreLegible nodes → ofItems place position (toValues nodes) = placedAll place position nodes
  | [], _ => by rw [toValues, ofItems, placedAll]
  | n :: rest, h => by
    rw [AreLegible] at h
    obtain ⟨hn, hrest⟩ := h
    rw [toValues, ofItems, placedAll, ofValue_toValue (position :: place) hn,
      ofItems_toValues place (position + 1) hrest]

end

end Node

/-- A rule as it is read from its document. -/
def Rule.placed (rule : Rule) : Rule :=
  ⟨Node.placedAll [] 0 rule.conditions, rule.default.map (Outcome.placed .default)⟩

/-- **A rule of legible nodes is read back from its document.** -/
theorem Rule.ofValue?_toValue {rule : Rule} (h : Node.AreLegible rule.conditions) :
    ofValue? rule.toValue = some rule.placed := by
  have hdefault : Outcome.ofValue? .default (rule.toValue.getOrNull "default") =
      rule.default.map (Outcome.placed .default) := by
    rw [toValue]
    cases rule.default with
    | none => rfl
    | some o => exact o.ofValue?_toValue _
  change some (Rule.mk (Node.ofItems [] 0 (Node.toValues rule.conditions))
    (Outcome.ofValue? .default (rule.toValue.getOrNull "default"))) = _
  rw [Node.ofItems_toValues [] 0 h, hdefault]
  rfl

/-! ## Checking -/

namespace Validator

open Validation

variable {r : Registry}

theorem checkResult_toValue (isDefault : Bool) (outcome : Option Outcome) :
    checkResult isDefault (outcome.elim .null Outcome.toValue) = .ok none := by
  cases outcome <;> rfl

theorem branches_of_branch? {v : Value} {b : Branch} (h : v.branch? = some b) :
    v.branches = [b] := by
  rw [Value.branch?] at h
  split at h
  · next heq => rw [heq, Option.some.inj h]
  · cases h

/-- A document with one branch is checked by checking its nodes. -/
theorem checkCondition_of_branch {v : Value} {b : Branch} {mark : Mark} {nodes : List Value}
    (hconstraint : v.isConstraint = false) (hb : v.branch? = some b)
    (hnodes : v.get? b.name = some (.list mark nodes)) :
    checkCondition r v =
      (checkResult false (v.getOrNull "result")).andThen fun _ => checkNodes r nodes := by
  have hbranches : ¬ 1 < v.branches.length := by simp [branches_of_branch? hb]
  rw [checkCondition, if_neg hbranches, if_neg (by rw [hconstraint]; nofun)]
  simp only [hb]
  split
  · next heq => cases hnodes.symm.trans heq; rfl
  · next hno => exact absurd hnodes (hno _ _)

mutual

/-- The validator finds nothing in a proper condition that was written. -/
theorem checkCondition_toValue : ∀ {b : Branch} {nodes : List Node} {outcome : Option Outcome},
    Node.areProper nodes = true →
    (∀ c ∈ Node.constraintsOf nodes, checkConstraint r c.toValue = .ok none) →
      checkCondition r (Node.condition b nodes outcome).toValue = .ok none
  | b, nodes, outcome, h, hconstraints => by
    rw [checkCondition_of_branch Node.isConstraint_toValue Node.branch?_toValue Node.get?_toValue,
      Node.getOrNull_result_toValue]
    exact andThen_eq_fine_iff.mpr ⟨checkResult_toValue false outcome,
      checkNodes_toValues h hconstraints⟩

theorem checkNodes_toValues : ∀ {nodes : List Node}, Node.areProper nodes = true →
    (∀ c ∈ Node.constraintsOf nodes, checkConstraint r c.toValue = .ok none) →
      checkNodes r (Node.toValues nodes) = .ok none
  | [], _, _ => by
    rw [Node.toValues, checkNodes]
    rfl
  | .constraint c :: rest, h, hconstraints => by
    rw [Node.areProper, Bool.and_eq_true] at h
    rw [Node.constraintsOf, Node.constraints, List.singleton_append, List.forall_mem_cons]
      at hconstraints
    rw [Node.toValues, Node.toValue, checkNodes, if_pos (by rfl)]
    exact andThen_eq_fine_iff.mpr ⟨hconstraints.1, checkNodes_toValues h.2 hconstraints.2⟩
  | .condition b nodes outcome :: rest, h, hconstraints => by
    rw [Node.areProper, Node.isProper, Bool.and_eq_true] at h
    rw [Node.constraintsOf, Node.constraints, List.forall_mem_append] at hconstraints
    rw [Node.toValues, checkNodes, Node.isConstraint_toValue,
      branches_of_branch? Node.branch?_toValue]
    exact andThen_eq_fine_iff.mpr ⟨checkCondition_toValue h.1 hconstraints.1,
      checkNodes_toValues h.2 hconstraints.2⟩
  | .invalid raw :: rest, h, _ => by
    rw [Node.areProper, Node.isProper] at h
    cases h

end

theorem checkRoots_toValues {roots : List Node} (hroots : ∀ n ∈ roots, n.isCondition = true)
    (h : Node.areProper roots = true)
    (hconstraints : ∀ c ∈ Node.constraintsOf roots, checkConstraint r c.toValue = .ok none) :
    checkRoots r (Node.toValues roots) = .ok none := by
  induction roots with
  | nil =>
    rw [Node.toValues]
    rfl
  | cons n rest ih =>
    obtain ⟨hcondition, hrest⟩ := List.forall_mem_cons.mp hroots
    cases n with
    | condition b nodes outcome =>
      rw [Node.areProper, Node.isProper, Bool.and_eq_true] at h
      rw [Node.constraintsOf, Node.constraints, List.forall_mem_append] at hconstraints
      rw [Node.toValues, checkRoots]
      exact andThen_eq_fine_iff.mpr ⟨checkCondition_toValue h.1 hconstraints.1,
        ih hrest h.2 hconstraints.2⟩
    | constraint c => cases hcondition
    | invalid raw => cases hcondition

end Validator

/-- **The document of a rule of proper conditions has no problem**, if no constraint's has. -/
theorem Rule.validate_toValue {r : Registry} {rule : Rule} (hsome : rule.conditions ≠ [])
    (hroots : ∀ n ∈ rule.conditions, n.isCondition = true)
    (h : Node.areProper rule.conditions = true)
    (hconstraints : ∀ c ∈ rule.constraints,
      Validator.checkConstraint r c.toValue = .ok none) :
    Validator.validate r rule.toValue = .ok none := by
  have hbare : rule.toValue.conditions.head?.all Validator.isBare = false := by
    cases hconditions : rule.conditions with
    | nil => exact absurd hconditions hsome
    | cons n rest =>
      have hn := hroots n (by rw [hconditions]; exact List.mem_cons_self ..)
      change (Node.toValues rule.conditions).head?.all Validator.isBare = false
      rw [hconditions, Node.toValues]
      cases n with
      | condition b nodes outcome =>
        rw [Node.toValue]
        rfl
      | constraint c => cases hn
      | invalid raw => cases hn
  have hdefault : Validator.checkResult true (rule.toValue.getOrNull "default") = .ok none := by
    rw [toValue]
    cases rule.default <;> rfl
  have hchecked : Validator.checkRoots r rule.toValue.conditions = .ok none :=
    Validator.checkRoots_toValues hroots h hconstraints
  rw [toValue] at hbare hdefault hchecked ⊢
  unfold Validator.validate Value.ofFields
  simp only
  rw [if_neg (by exact Bool.eq_false_iff.mp hbare)]
  exact Validation.andThen_eq_fine_iff.mpr ⟨hchecked, hdefault⟩

/-- **A rule of proper conditions in their places is written as a valid document of itself.** -/
theorem Rule.valid_toValue {r : Registry} {rule : Rule} (hsome : rule.conditions ≠ [])
    (hroots : ∀ n ∈ rule.conditions, n.isCondition = true)
    (h : Node.areProper rule.conditions = true) (hplaced : rule.placed = rule)
    (hconstraints : ∀ c ∈ rule.constraints,
      (Validator.checkConstraint r c.toValue).isFine = true) :
    Validator.validate r rule.toValue = .ok none ∧ Rule.ofValue? rule.toValue = some rule :=
  ⟨validate_toValue hsome hroots h fun c hc => Validation.isFine_iff.mp (hconstraints c hc),
    (ofValue?_toValue (Node.areLegible_of_areProper h)).trans (congrArg some hplaced)⟩

/-! ## One result object for several roots -/

/-- The document of a root with a result object. -/
def Node.rootDocument (payload : Value) (root : Branch × List Node) : Value :=
  .ofFields [(root.1.name, .ofItems (Node.toValues root.2)), ("result", payload)]

/-- The document of a rule whose roots carry one result object. -/
def Rule.sharing (payload : Value) (roots : List (Branch × List Node)) : Value :=
  .ofFields [("conditions", .ofItems (roots.map (Node.rootDocument payload)))]

namespace Node

variable {r : Registry} {payload : Value} {root : Branch × List Node}

theorem isConstraint_rootDocument : (rootDocument payload root).isConstraint = false := by
  obtain ⟨b, nodes⟩ := root
  cases b <;> rfl

theorem branch?_rootDocument : (rootDocument payload root).branch? = some root.1 := by
  obtain ⟨b, nodes⟩ := root
  cases b <;> rfl

theorem get?_rootDocument : (rootDocument payload root).get? root.1.name =
    some (.list none (toValues root.2)) := by
  obtain ⟨b, nodes⟩ := root
  cases b <;> rfl

theorem getOrNull_result_rootDocument :
    (rootDocument payload root).getOrNull "result" = payload := by
  obtain ⟨b, nodes⟩ := root
  cases b <;> rfl

theorem ofValue_rootDocument (place : List Nat) (h : areProper root.2 = true) :
    ofValue place (rootDocument payload root) = .condition root.1 (placedAll place 0 root.2)
      (Outcome.ofValue? (.place place) payload) := by
  rw [Validator.ofValue_eq_condition (by rw [isConstraint_rootDocument]; nofun)
    branch?_rootDocument get?_rootDocument, getOrNull_result_rootDocument,
    ofItems_toValues place 0 (areLegible_of_areProper h)]

theorem checkCondition_rootDocument (hpayload : payload.hasField "value" = true)
    (h : areProper root.2 = true)
    (hconstraints : ∀ c ∈ constraintsOf root.2,
      Validator.checkConstraint r c.toValue = .ok none) :
    Validator.checkCondition r (rootDocument payload root) = .ok none := by
  rw [Validator.checkCondition_of_branch isConstraint_rootDocument branch?_rootDocument
    get?_rootDocument, getOrNull_result_rootDocument]
  refine Validation.andThen_eq_fine_iff.mpr ⟨?_, Validator.checkNodes_toValues h hconstraints⟩
  rw [Validator.checkResult, hpayload, Bool.or_true]
  rfl

end Node

namespace Rule

variable {r : Registry} {payload : Value} {o : Outcome}

theorem checkRoots_rootDocument (hpayload : payload.hasField "value" = true) :
    ∀ {roots : List (Branch × List Node)}, (∀ root ∈ roots, Node.areProper root.2 = true) →
      (∀ root ∈ roots, ∀ c ∈ Node.constraintsOf root.2,
        Validator.checkConstraint r c.toValue = .ok none) →
        Validator.checkRoots r (roots.map (Node.rootDocument payload)) = .ok none
  | [], _, _ => rfl
  | root :: rest, hproper, hconstraints => by
    obtain ⟨hroot, hrest⟩ := List.forall_mem_cons.mp hproper
    obtain ⟨hconstraint, hconstraints⟩ := List.forall_mem_cons.mp hconstraints
    rw [List.map_cons, Validator.checkRoots]
    exact Validation.andThen_eq_fine_iff.mpr
      ⟨Node.checkCondition_rootDocument hpayload hroot hconstraint,
        checkRoots_rootDocument hpayload hrest hconstraints⟩

theorem ofItems_rootDocument (houtcome : ∀ place, Outcome.ofValue? place payload = some o) :
    ∀ {roots : List (Branch × List Node)}, (∀ root ∈ roots, Node.areProper root.2 = true) →
      (∀ root ∈ roots, ∀ place, Node.placedAll place 0 root.2 = root.2) → ∀ position : Nat,
        Node.ofItems [] position (roots.map (Node.rootDocument payload)) =
          roots.map fun root => .condition root.1 root.2 (some o)
  | [], _, _, _ => by
    rw [List.map_nil, Node.ofItems, List.map_nil]
  | root :: rest, hproper, hplaced, position => by
    obtain ⟨hroot, hrest⟩ := List.forall_mem_cons.mp hproper
    obtain ⟨hplace, hplaced⟩ := List.forall_mem_cons.mp hplaced
    rw [List.map_cons, List.map_cons, Node.ofItems, Node.ofValue_rootDocument _ hroot, hplace,
      houtcome, ofItems_rootDocument houtcome hrest hplaced]

/-- **Roots that share a result object are written as a valid document of themselves.** -/
theorem valid_sharing {roots : List (Branch × List Node)} (hsome : roots ≠ [])
    (hpayload : payload.hasField "value" = true)
    (houtcome : ∀ place, Outcome.ofValue? place payload = some o)
    (hproper : ∀ root ∈ roots, Node.areProper root.2 = true)
    (hplaced : ∀ root ∈ roots, ∀ place, Node.placedAll place 0 root.2 = root.2)
    (hconstraints : ∀ root ∈ roots, ∀ c ∈ Node.constraintsOf root.2,
      (Validator.checkConstraint r c.toValue).isFine = true) :
    Validator.validate r (sharing payload roots) = .ok none ∧
      Rule.ofValue? (sharing payload roots) =
        some ⟨roots.map fun root => .condition root.1 root.2 (some o), none⟩ := by
  have hbare : (sharing payload roots).conditions.head?.all Validator.isBare = false := by
    obtain ⟨root, rest, rfl⟩ := List.exists_cons_of_ne_nil hsome
    rfl
  have hchecked : Validator.checkRoots r (sharing payload roots).conditions = .ok none :=
    checkRoots_rootDocument hpayload hproper fun root hroot c hc =>
      Validation.isFine_iff.mp (hconstraints root hroot c hc)
  constructor
  · unfold sharing Value.ofFields at hbare hchecked ⊢
    unfold Validator.validate
    simp only
    rw [if_neg (by exact Bool.eq_false_iff.mp hbare)]
    exact Validation.andThen_eq_fine_iff.mpr ⟨hchecked, rfl⟩
  · have hroots := ofItems_rootDocument houtcome hproper hplaced 0
    exact congrArg (fun nodes => some (Rule.mk nodes none)) hroots

end Rule

end Verdict
