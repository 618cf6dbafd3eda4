import Verdict.Proofs.Limit
import Verdict.Rule.Reading
import Verdict.Validation.Validator

/-!
# Proofs/Validation/Sound — what reading makes of a valid document

A **sound** node is a constraint on a named field with a registered operator that suits its value,
or a condition of sound nodes; nothing in it is invalid.  `Rule.isSound_of_validate` says that
reading a document without a problem gives conditions of sound nodes and nothing else.
-/

namespace Verdict

/-- A constraint with a text as its field, a registered operator, and a list where the operator asks
for one. -/
structure Constraint.IsSound (r : Registry) (c : Constraint) : Prop where
  field : ∃ name, c.field = .str name
  operator : ∃ name o, c.operator = .str name ∧ r.find? (.str name) = some o
  list : ∀ name ∈ Operator.listOperators, c.operator = .str name →
    ∃ mark items, c.value = .list mark items

/-- A node without anything invalid in it. -/
inductive Node.IsSound (r : Registry) : Node → Prop
  | constraint {c : Constraint} : c.IsSound r → IsSound r (.constraint c)
  | condition {b : Branch} {nodes : List Node} {outcome : Option Outcome} :
      (∀ n ∈ nodes, IsSound r n) → IsSound r (.condition b nodes outcome)

namespace Validation

theorem andThen_eq_fine_iff {first : Validation} {second : Unit → Validation} :
    first.andThen second = .ok none ↔ first = .ok none ∧ second () = .ok none := by
  cases first with
  | error f => exact ⟨fun h => (by cases h), fun h => (by cases h.1)⟩
  | ok p =>
    cases p with
    | none => exact ⟨fun h => ⟨rfl, h⟩, fun h => h.2⟩
    | some p => exact ⟨fun h => (by cases h), fun h => (by cases h.1)⟩

/-- Whether no problem was found. -/
def isFine : Validation → Bool
  | .ok none => true
  | _ => false

theorem isFine_iff {v : Validation} : v.isFine = true ↔ v = .ok none := by
  rcases v with f | (_ | p) <;> simp [isFine]

end Validation

open Validation

namespace Validator

variable {r : Registry}

theorem isList_of_checkList {v : Value} {name : String} (hname : v.getOrNull "operator" = .str name)
    (hmem : name ∈ Operator.listOperators) (h : checkList v = .ok none) :
    ∃ mark items, v.getOrNull "value" = .list mark items := by
  unfold checkList at h
  rw [hname] at h
  split at h
  · next _ _ hvalue => exact ⟨_, _, hvalue⟩
  · next heq _ =>
    obtain rfl := Value.str.inj heq
    rw [if_pos (List.contains_iff_mem.mpr hmem)] at h
    cases h
  · next hno _ => exact absurd rfl (hno name)

/-- A constraint that the validator lets pass is sound. -/
theorem isSound_of_checkConstraint {v : Value} (h : checkConstraint r v = .ok none) :
    (Constraint.ofValue v).IsSound r := by
  unfold checkConstraint at h
  split at h
  · next name hfield =>
    obtain ⟨hoperator, h⟩ := andThen_eq_fine_iff.mp h
    obtain ⟨hlist, _⟩ := andThen_eq_fine_iff.mp h
    unfold checkOperator at hoperator
    split at hoperator
    · next operator hname =>
      split at hoperator
      · next hhas =>
        obtain ⟨o, ho⟩ := Option.isSome_iff_exists.mp hhas
        refine ⟨⟨name, hfield⟩, ⟨operator, o, hname, ho⟩, fun name' hmem hname' => ?_⟩
        cases hname.symm.trans hname'
        exact isList_of_checkList hname hmem hlist
      · cases hoperator
    · next hname =>
      obtain ⟨_, _, h⟩ := Except.map_eq_ok_iff.mp hoperator
      cases h
  · cases h

/-- A list under a branch is read as the nodes of a condition. -/
theorem ofValue_eq_condition {v : Value} {b : Branch} {mark : Mark} {nodes : List Value}
    (hconstraint : ¬ v.isConstraint = true) (hb : v.branch? = some b)
    (hnodes : v.get? b.name = some (.list mark nodes)) (place : List Nat) :
    Node.ofValue place v = .condition b (Node.ofItems place 0 nodes)
      (Outcome.ofValue? (.place place) (v.getOrNull "result")) := by
  rw [Node.ofValue, if_neg hconstraint]
  simp only [hb]
  split
  · next heq => cases hnodes.symm.trans heq; rfl
  · next heq => cases hnodes.symm.trans heq
  · next hno _ => exact absurd hnodes (hno _ _)

mutual

/-- **Reading a condition that the validator lets pass gives a sound condition.** -/
theorem sound_of_checkCondition (place : List Nat) (v : Value)
    (h : checkCondition r v = .ok none) :
    ∃ b nodes outcome, Node.ofValue place v = .condition b nodes outcome ∧
      ∀ n ∈ nodes, n.IsSound r := by
  rw [checkCondition] at h
  split at h
  · cases h
  · split at h
    · cases h
    · next hconstraint =>
      split at h
      · cases h
      · next b hb =>
        split at h
        · next mark nodes hget =>
          obtain ⟨_, h⟩ := andThen_eq_fine_iff.mp h
          have hsize : sizeOf nodes < sizeOf v := by
            have := Value.sizeOf_lt_of_get? hget
            simp only [Value.list.sizeOf_spec] at this
            omega
          exact ⟨b, Node.ofItems place 0 nodes, _, ofValue_eq_condition hconstraint hb hget place,
            sound_of_checkNodes place 0 nodes h⟩
        · cases h
termination_by sizeOf v

theorem sound_of_checkNodes (place : List Nat) (position : Nat) (nodes : List Value)
    (h : checkNodes r nodes = .ok none) :
    ∀ n ∈ Node.ofItems place position nodes, n.IsSound r := by
  match nodes with
  | [] =>
    rw [Node.ofItems]
    simp
  | v :: rest =>
    rw [checkNodes] at h
    obtain ⟨hv, hrest⟩ := andThen_eq_fine_iff.mp h
    rw [Node.ofItems]
    refine List.forall_mem_cons.mpr ⟨?_, sound_of_checkNodes place (position + 1) rest hrest⟩
    split at hv
    · next hconstraint =>
      rw [Node.ofValue, if_pos hconstraint]
      exact .constraint (isSound_of_checkConstraint hv)
    · split at hv
      · cases hv
      · obtain ⟨b, nodes, outcome, heq, hnodes⟩ := sound_of_checkCondition (position :: place) v hv
        rw [heq]
        exact .condition hnodes
termination_by sizeOf nodes

end

theorem sound_of_checkRoots : ∀ (position : Nat) (roots : List Value),
    checkRoots r roots = .ok none →
    ∀ n ∈ Node.ofItems [] position roots, n.isCondition = true ∧ n.IsSound r
  | _, [], _ => by
    rw [Node.ofItems]
    simp
  | position, v :: rest, h => by
    rw [checkRoots] at h
    obtain ⟨hv, hrest⟩ := andThen_eq_fine_iff.mp h
    obtain ⟨b, nodes, outcome, heq, hnodes⟩ := sound_of_checkCondition [position] v hv
    rw [Node.ofItems, heq]
    exact List.forall_mem_cons.mpr ⟨⟨rfl, .condition hnodes⟩, sound_of_checkRoots _ rest hrest⟩

end Validator

/-- **Reading a document without a problem gives conditions of sound nodes.** -/
theorem Rule.isSound_of_validate {r : Registry} {v : Value} {rule : Rule}
    (h : Validator.validate r v = .ok none) (hrule : Rule.ofValue? v = some rule) :
    ∀ n ∈ rule.conditions, n.isCondition = true ∧ n.IsSound r := by
  cases v with
  | object mark fields =>
    cases hrule
    unfold Validator.validate at h
    simp only at h
    split at h
    · cases h
    · exact Validator.sound_of_checkRoots 0 _ (andThen_eq_fine_iff.mp h).1
  | _ => cases hrule

mutual

theorem Node.IsSound.of_mem_constraints {r : Registry} : ∀ {n : Node}, n.IsSound r →
    ∀ c ∈ n.constraints, c.IsSound r
  | .constraint c, h => by
    cases h with
    | constraint hc =>
      rw [constraints]
      exact List.forall_mem_singleton.mpr hc
  | .condition b nodes outcome, h => by
    cases h with
    | condition hnodes =>
      rw [constraints]
      exact of_mem_constraintsOf hnodes
  | .invalid raw, h => nomatch h

theorem Node.IsSound.of_mem_constraintsOf {r : Registry} : ∀ {nodes : List Node},
    (∀ n ∈ nodes, n.IsSound r) → ∀ c ∈ constraintsOf nodes, c.IsSound r
  | [], _ => by
    rw [constraintsOf]
    simp
  | n :: rest, h => by
    obtain ⟨hn, hrest⟩ := List.forall_mem_cons.mp h
    rw [constraintsOf]
    exact List.forall_mem_append.mpr ⟨of_mem_constraints hn, of_mem_constraintsOf hrest⟩

end

end Verdict
