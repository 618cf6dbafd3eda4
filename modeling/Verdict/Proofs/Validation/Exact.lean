import Verdict.Proofs.Rule.Written
import Verdict.Validation.Grammar

/-!
# Proofs/Validation/Exact — the validator accepts exactly the well-formed documents

    a check finds  nothing     exactly when the part is well formed
                   a problem   whose element is a fragment of the document
    a check stops  with a fault of a constraint in the document

Each check **settles** whether a part of a document is well formed, in this threefold sense.  One
check after another settles a conjunction (`Settles.andThen`), and a check of a fragment counts for
the whole (`Settles.of_fragment`), so one induction over the document gives all three parts
(`Validator.validate_exact`).
-/

namespace Verdict

/-- What can stop a check of a constraint: an operator that is no text and cannot be written into a
problem, or a pattern that cannot be read. -/
inductive Validator.Stops (c : Value) (f : Fault) : Prop
  | operator : (∀ name, c.getOrNull "operator" ≠ .str name) →
      (c.getOrNull "operator").plain = .error f → Stops c f
  | pattern {text : String} : c.getOrNull "value" = .str text →
      Pattern.compile? text = .error f → Stops c f

namespace Validation

/-- A check that is fine exactly where a statement holds of a document, reports fragments of the
document, and stops at its constraints only. -/
structure Settles (x : Validation) (holds : Prop) (v : Value) : Prop where
  fine_iff : x = .ok none ↔ holds
  element : ∀ p, x = .ok (some p) → Fragment p.element v
  stops : ∀ f, x = .error f → ∃ c, Fragment c v ∧ Validator.Stops c f

variable {x : Validation} {holds holds' : Prop} {v w : Value}

theorem settles_fine (h : holds) (v : Value) : fine.Settles holds v :=
  ⟨⟨fun _ => h, fun _ => rfl⟩, nofun, nofun⟩

theorem settles_problem {p : Problem} (h : ¬ holds) (hp : Fragment p.element v) :
    (problem p).Settles holds v := by
  refine ⟨⟨nofun, fun hholds => absurd hholds h⟩, fun p' hp' => ?_, nofun⟩
  cases hp'
  exact hp

theorem Settles.congr (hx : x.Settles holds v) (h : holds ↔ holds') : x.Settles holds' v :=
  ⟨hx.fine_iff.trans h, hx.element, hx.stops⟩

/-- What is found in a fragment is found in the whole. -/
theorem Settles.of_fragment (hx : x.Settles holds w) (hw : Fragment w v) : x.Settles holds v := by
  refine ⟨hx.fine_iff, fun p hp => (hx.element p hp).trans hw, fun f hf => ?_⟩
  obtain ⟨c, hc, hstops⟩ := hx.stops f hf
  exact ⟨c, hc.trans hw, hstops⟩

/-- **One check after another settles that both statements hold.** -/
theorem Settles.andThen {y : Unit → Validation} (hx : x.Settles holds v)
    (hy : (y ()).Settles holds' v) : (x.andThen y).Settles (holds ∧ holds') v := by
  refine ⟨andThen_eq_fine_iff.trans (and_congr hx.fine_iff hy.fine_iff), fun p hp => ?_,
    fun f hf => ?_⟩
  · rcases x with f | (_ | p')
    · cases hp
    · exact hy.element p hp
    · cases hp
      exact hx.element p rfl
  · rcases x with f' | (_ | p)
    · cases hf
      exact hx.stops f rfl
    · exact hy.stops f hf
    · cases hf

end Validation

open Validation

namespace Validator

variable {r : Registry}

/-! ## Constraints -/

theorem settles_checkOperator (r : Registry) (c : Value) :
    (checkOperator r c).Settles (r.has (c.getOrNull "operator") = true) c := by
  unfold checkOperator
  split
  · next name hname =>
    rw [hname]
    split
    · next hhas => exact settles_fine hhas c
    · next hhas => exact settles_problem hhas (.self c)
  · next hno =>
    have hhas : r.has (c.getOrNull "operator") = false := by
      cases h : c.getOrNull "operator" with
      | str name => exact absurd h (hno name)
      | _ => rfl
    rw [hhas]
    refine ⟨⟨fun h => ?_, fun h => absurd h Bool.false_ne_true⟩, fun p hp => ?_, fun f hf => ?_⟩
    · obtain ⟨_, _, h⟩ := Except.map_eq_ok_iff.mp h
      cases h
    · obtain ⟨_, _, h⟩ := Except.map_eq_ok_iff.mp hp
      cases h
      exact .self c
    · exact ⟨c, .self c, .operator hno (Except.map_eq_error_iff.mp hf)⟩

theorem settles_checkList (c : Value) :
    (checkList c).Settles (∀ name ∈ Operator.listOperators, c.getOrNull "operator" = .str name →
      (c.getOrNull "value").isList = true) c := by
  unfold checkList
  split
  · next hvalue =>
    rw [hvalue]
    exact settles_fine (fun _ _ _ => rfl) c
  · next name hname hno =>
    have hlist : ¬ (c.getOrNull "value").isList = true := by
      cases hvalue : c.getOrNull "value" with
      | list mark items => exact absurd hvalue (hno mark items)
      | _ => nofun
    rw [hname]
    split
    · next hmem =>
      exact settles_problem (fun h => hlist (h name (List.contains_iff_mem.mp hmem) rfl)) (.self c)
    · next hmem =>
      refine settles_fine (fun name' hmem' heq => ?_) c
      cases heq
      exact absurd (List.contains_iff_mem.mpr hmem') hmem
  · next hno _ => exact settles_fine (fun name _ hname => absurd hname (hno name)) c

/-- What an operator that asks for a pattern needs. -/
def HasPattern (c : Value) : Prop :=
  (c.getOrNull "value").isReference = true ∨
    ∃ text node, c.getOrNull "value" = .str text ∧ Pattern.compile? text = .ok (some node)

theorem hasPattern_iff {c : Value} {text : String}
    (hreference : ¬ (c.getOrNull "value").isReference = true)
    (hvalue : c.getOrNull "value" = .str text) :
    HasPattern c ↔ ∃ node, Pattern.compile? text = .ok (some node) := by
  rw [HasPattern, or_iff_right hreference]
  refine ⟨fun ⟨text', node, hvalue', hnode⟩ => ?_, fun ⟨node, hnode⟩ => ⟨text, node, hvalue, hnode⟩⟩
  cases hvalue.symm.trans hvalue'
  exact ⟨node, hnode⟩

/-- A pattern is fine if it compiles; the check stops where compiling does. -/
theorem settles_compile {c : Value} {text : String} (hvalue : c.getOrNull "value" = .str text) :
    Validation.Settles ((Pattern.compile? text).map fun node =>
        if node.isSome then none else some (.valueNotAPattern c))
      (∃ node, Pattern.compile? text = .ok (some node)) c := by
  cases hcompile : Pattern.compile? text with
  | error f =>
    refine ⟨⟨nofun, nofun⟩, nofun, fun f' hf' => ?_⟩
    cases hf'
    exact ⟨c, .self c, .pattern hvalue hcompile⟩
  | ok node =>
    cases node with
    | none => exact settles_problem nofun (.self c)
    | some node => exact settles_fine ⟨node, rfl⟩ c

theorem settles_checkPattern (c : Value) :
    (checkPattern c).Settles (∀ name ∈ Operator.patternOperators,
      c.getOrNull "operator" = .str name → HasPattern c) c := by
  unfold checkPattern
  split
  · next name hname =>
    have hiff : name ∈ Operator.patternOperators → ((∀ name' ∈ Operator.patternOperators,
        c.getOrNull "operator" = .str name' → HasPattern c) ↔ HasPattern c) := fun hmem =>
      ⟨fun h => h name hmem hname, fun h _ _ _ => h⟩
    split
    · next hasks =>
      obtain ⟨hmem, hreference⟩ := Bool.and_eq_true_iff.mp hasks
      refine Settles.congr ?_ (hiff (List.contains_iff_mem.mp hmem)).symm
      have hreference : ¬ (c.getOrNull "value").isReference = true := by simpa using hreference
      split
      · next text hvalue =>
        exact (settles_compile hvalue).congr (hasPattern_iff hreference hvalue).symm
      · next hno =>
        refine settles_problem (fun h => ?_) (.self c)
        obtain ⟨text, _, hvalue, _⟩ := h.resolve_left hreference
        exact hno text hvalue
    · next hasks =>
      refine settles_fine (fun name' hmem hname' => ?_) c
      cases hname.symm.trans hname'
      refine .inl ?_
      simpa [hmem] using hasks
  · next hno => exact settles_fine (fun name _ hname => absurd hname (hno name)) c

/-- **Checking a constraint settles whether it suits the operators.** -/
theorem settles_checkConstraint (r : Registry) (c : Value) :
    (checkConstraint r c).Settles (Grammar.IsConstraint r c) c := by
  unfold checkConstraint
  split
  · next name hfield =>
    refine Settles.congr ((settles_checkOperator r c).andThen
      ((settles_checkList c).andThen (settles_checkPattern c))) ?_
    exact ⟨fun ⟨hoperator, hlist, hpattern⟩ => ⟨⟨name, hfield⟩, hoperator, hlist, hpattern⟩,
      fun h => ⟨h.operator, h.list, h.pattern⟩⟩
  · next hno =>
    refine settles_problem (fun h => ?_) (.self c)
    obtain ⟨name, hname⟩ := h.field
    exact hno name hname

/-! ## Conditions -/

theorem settles_checkResult (isDefault : Bool) (payload : Value) :
    (checkResult isDefault payload).Settles (Grammar.IsPayload payload) payload := by
  unfold checkResult
  split
  · next h => exact settles_fine (by simpa [Grammar.IsPayload] using h) payload
  · next h => exact settles_problem (by simpa [Grammar.IsPayload] using h) (.self payload)

/-- A field of an object is a fragment, and so is the `null` in place of a missing one where no
problem is reported. -/
theorem settles_checkResult_field (isDefault : Bool) (key : String) (v : Value) :
    (checkResult isDefault (v.getOrNull key)).Settles (Grammar.IsPayload (v.getOrNull key)) v := by
  cases h : v.get? key with
  | none =>
    have hnull : v.getOrNull key = .null := by rw [Value.getOrNull, h]; rfl
    rw [hnull]
    exact settles_fine (.inl rfl) v
  | some payload =>
    have hpayload : v.getOrNull key = payload := by rw [Value.getOrNull, h]; rfl
    rw [hpayload]
    exact (settles_checkResult isDefault payload).of_fragment (.of_get? h)

/-- What the nodes of a well-formed condition are. -/
def AreNodes (r : Registry) (nodes : List Value) : Prop :=
  ∀ n ∈ nodes, (n.isConstraint = true → Grammar.IsConstraint r n) ∧
    (n.isConstraint = false → Grammar.IsCondition r n)

/-- A document with a list under its one branch is a condition exactly when the result and the nodes
are well formed. -/
theorem isCondition_iff {v : Value} {b : Branch} {mark : Mark} {nodes : List Value}
    (hb : v.branches = [b]) (hnodes : v.get? b.name = some (.list mark nodes)) :
    Grammar.IsCondition r v ↔ Grammar.IsPayload (v.getOrNull "result") ∧ AreNodes r nodes := by
  constructor
  · intro h
    cases h with
    | mk hb' hnodes' hresult hconstraints hconditions =>
      cases hb.symm.trans hb'
      cases hnodes.symm.trans hnodes'
      exact ⟨hresult, fun n hn => ⟨hconstraints n hn, hconditions n hn⟩⟩
  · rintro ⟨hresult, h⟩
    exact .mk hb hnodes hresult (fun n hn => (h n hn).1) fun n hn => (h n hn).2

/-- Anything else that is checked as a condition has a problem. -/
theorem settles_checkCondition_of_not {v : Value} (hno : ¬ ∃ b mark nodes,
    v.isConstraint = false ∧ v.branch? = some b ∧ v.get? b.name = some (.list mark nodes)) :
    (checkCondition r v).Settles (v.isConstraint = false ∧ Grammar.IsCondition r v) v := by
  have hbad : ¬ (v.isConstraint = false ∧ Grammar.IsCondition r v) := by
    rintro ⟨hconstraint, hcondition⟩
    cases hcondition with
    | @mk _ b mark nodes hb hnodes =>
      refine hno ⟨b, mark, nodes, hconstraint, ?_, hnodes⟩
      rw [Value.branch?, hb]
  rw [checkCondition]
  split
  · exact settles_problem hbad (.self v)
  · split
    · exact settles_problem hbad (.self v)
    · next hconstraint =>
      split
      · exact settles_problem hbad (.self v)
      · next b hb =>
        split
        · next mark nodes hnodes =>
          exact absurd ⟨b, mark, nodes, by simpa using hconstraint, hb, hnodes⟩ hno
        · exact settles_problem hbad (.self v)

mutual

/-- **Checking a condition settles whether it is well formed and no constraint.** -/
theorem settles_checkCondition (r : Registry) (v : Value) :
    (checkCondition r v).Settles (v.isConstraint = false ∧ Grammar.IsCondition r v) v := by
  by_cases hshape : ∃ b mark nodes,
      v.isConstraint = false ∧ v.branch? = some b ∧ v.get? b.name = some (.list mark nodes)
  · obtain ⟨b, mark, nodes, hconstraint, hb, hnodes⟩ := hshape
    have hsize : sizeOf nodes < sizeOf v := by
      have := Value.sizeOf_lt_of_get? hnodes
      simp only [Value.list.sizeOf_spec] at this
      omega
    have hfragment : ∀ n ∈ nodes, Fragment n v := fun n hn =>
      (Fragment.item hn (.self n)).trans (.of_get? hnodes)
    rw [checkCondition_of_branch hconstraint hb hnodes]
    refine Settles.congr ((settles_checkResult_field false "result" v).andThen
      (settles_checkNodes r v nodes hfragment)) ?_
    rw [isCondition_iff (branches_of_branch? hb) hnodes, and_iff_right hconstraint]
  · exact settles_checkCondition_of_not hshape
termination_by sizeOf v

theorem settles_checkNodes (r : Registry) (v : Value) (nodes : List Value)
    (hv : ∀ n ∈ nodes, Fragment n v) : (checkNodes r nodes).Settles (AreNodes r nodes) v := by
  match nodes, hv with
  | [], _ =>
    rw [checkNodes]
    exact settles_fine (fun n hn => nomatch hn) v
  | n :: rest, hv =>
    obtain ⟨hn, hrest⟩ := List.forall_mem_cons.mp hv
    rw [checkNodes]
    refine Settles.congr (Settles.andThen ?_ (settles_checkNodes r v rest hrest))
      List.forall_mem_cons.symm
    split
    · next hconstraint =>
      refine Settles.congr ((settles_checkConstraint r n).of_fragment hn) ?_
      simp [hconstraint]
    · next hconstraint =>
      have hconstraint : n.isConstraint = false := by simpa using hconstraint
      split
      · next hbranches =>
        refine settles_problem (fun h => ?_) hn
        cases h.2 hconstraint with
        | mk hb =>
          rw [hb] at hbranches
          cases hbranches
      · refine Settles.congr ((settles_checkCondition r n).of_fragment hn) ?_
        simp [hconstraint]
termination_by sizeOf nodes

end

/-! ## Rules -/

theorem settles_checkRoots (r : Registry) {v : Value} : ∀ {roots : List Value},
    (∀ c ∈ roots, Fragment c v) → (checkRoots r roots).Settles
      (∀ c ∈ roots, c.isConstraint = false ∧ Grammar.IsCondition r c) v
  | [], _ => settles_fine (fun c hc => nomatch hc) v
  | c :: rest, hv => by
    obtain ⟨hc, hrest⟩ := List.forall_mem_cons.mp hv
    rw [List.forall_mem_cons]
    exact ((settles_checkCondition r c).of_fragment hc).andThen (settles_checkRoots r hrest)

/-- Roots are fragments of the document. -/
theorem fragment_of_mem_conditions {v c : Value} (hc : c ∈ v.conditions) : Fragment c v := by
  have hget : v.getOrNull "conditions" ≠ .null → Fragment (v.getOrNull "conditions") v := by
    intro hne
    cases h : v.get? "conditions" with
    | none => exact absurd (by rw [Value.getOrNull, h]; rfl) hne
    | some w =>
      rw [Value.getOrNull, h]
      exact .of_get? h
  rw [Value.conditions] at hc
  split at hc
  · cases hc
  · next mark items hitems =>
    exact (Fragment.item hc (.self c)).trans (hitems ▸ hget (by simp [hitems]))
  · next hnull _ =>
    rw [List.mem_singleton.mp hc]
    exact hget hnull

/-- A condition has a branch and is not bare. -/
theorem not_isBare {c : Value} (h : Grammar.IsCondition r c) : ¬ isBare c = true := by
  intro hbare
  unfold isBare at hbare
  split at hbare
  · cases h with
    | mk hb => cases hb
  · cases hbare

/-- **Validation settles whether a document is a rule.** -/
theorem settles_validate (r : Registry) (v : Value) :
    (validate r v).Settles (Grammar.IsRule r v) v := by
  unfold validate
  split
  · next mark fields =>
    split
    · next hbare =>
      refine settles_problem (fun h => ?_) (.self _)
      cases hroots : (Value.object mark fields).conditions with
      | nil => exact h.nonempty hroots
      | cons c rest =>
        have hc : Grammar.IsCondition r c := (h.conditions c (by simp [hroots])).2
        rw [hroots] at hbare
        exact not_isBare hc hbare
    · next hbare =>
      refine Settles.congr ((settles_checkRoots r fun _ => fragment_of_mem_conditions).andThen
        (settles_checkResult_field true "default" _)) ?_
      refine ⟨fun ⟨hroots, hdefault⟩ => ⟨rfl, ?_, hroots, hdefault⟩, fun h =>
        ⟨h.conditions, h.default⟩⟩
      intro hnil
      rw [hnil] at hbare
      exact hbare rfl
  · next hobject =>
    refine settles_problem (fun h => ?_) (.self v)
    cases v with
    | object mark fields => exact hobject mark fields rfl
    | _ => cases h.isObject

end Validator

end Verdict
