import Verdict.Proofs.Introspection.Effective
import Verdict.Proofs.Introspection.Explored
import Verdict.Text.Part

/-!
# Proofs/Introspection/Warning — what is found while a rule is explored

    findings ──condition──▸ findings ──constraint──▸ findings ──▸ …

A statement about findings is **invariant** when a condition keeps it and so does each constraint of
some list; notes of such constraints then keep it (`Exploration.Noted.keeps`).  No warning of an
unknown operator is one such statement, for constraints with registered operators
(`isInvariant_knowsOperators`).
-/

namespace Verdict

namespace Exploration

/-- A statement about findings that conditions and some constraints keep. -/
structure IsInvariant (r : Registry) (cs : List Constraint) (P : Findings → Prop) : Prop where
  condition : ∀ {f : Findings}, P f → ∀ depth, P (f.recordCondition depth)
  constraint : ∀ c ∈ cs, ∀ {negated : Bool} {f f' : Findings} {operator : Value},
    effective r negated c f = .ok (operator, f') → P f → P f'

/-- **Notes keep what their constraints keep.** -/
theorem Noted.keeps {r : Registry} {cs : List Constraint} {P : Findings → Prop}
    {notes : List Note} {f f' : Findings} (h : Noted r notes f f')
    (hnotes : ∀ c, .constraint c ∈ notes → c ∈ cs) (hinvariant : IsInvariant r cs P)
    (hf : P f) : P f' := by
  induction h with
  | nil => exact hf
  | condition _ ih =>
    exact ih (fun c hc => hnotes c (List.mem_cons_of_mem _ hc)) (hinvariant.condition hf _)
  | constraint heffective _ ih =>
    refine ih (fun c hc => hnotes c (List.mem_cons_of_mem _ hc)) ?_
    exact hinvariant.constraint _ (hnotes _ (List.mem_cons_self ..)) heffective hf

end Exploration

/-! ## Warnings -/

namespace Findings

theorem mem_appendOnce_iff {items : List String} {s w : String} :
    w ∈ appendOnce items s ↔ w ∈ items ∨ w = s := by
  unfold appendOnce
  split
  · next h => exact ⟨.inl, fun hw => hw.elim id fun heq => heq ▸ List.contains_iff_mem.mp h⟩
  · simp

theorem nodup_appendOnce {items : List String} (h : items.Nodup) (s : String) :
    (appendOnce items s).Nodup := by
  unfold appendOnce
  split
  · exact h
  · next hs =>
    have hnew : s ∉ items := fun hmem => hs (List.contains_iff_mem.mpr hmem)
    exact List.nodup_append.mpr ⟨h, List.pairwise_singleton .., fun x hx y hy hxy =>
      hnew (List.mem_singleton.mp hy ▸ hxy ▸ hx)⟩

theorem warnings_recordConstraint (f : Findings) (field : String) (o : Option Operator) :
    (f.recordConstraint field o).warnings = f.warnings := by
  cases o <;> rfl

/-- No warning speaks of an unknown operator. -/
def KnowsOperators (f : Findings) : Prop :=
  ∀ w ∈ f.warnings, startsWith w "Unknown operator" = false

end Findings

/-- **Constraints with registered operators give no warning of an unknown one.** -/
theorem Exploration.isInvariant_knowsOperators {r : Registry} {cs : List Constraint}
    (h : ∀ c ∈ cs, c.IsSound r) : IsInvariant r cs Findings.KnowsOperators where
  condition hf _ := hf
  constraint c hc negated f f' operator heffective hf := by
    obtain ⟨name, o, hname, ho⟩ := (h c hc).operator
    have hhas : r.has c.operator = true := by rw [Registry.has, hname, ho]; rfl
    obtain ⟨field, shown, _, _, rfl⟩ := effective_eq_ok heffective
    have hrecorded : (f.recordConstraint field (r.find? c.operator)).KnowsOperators := by
      rw [Findings.KnowsOperators, Findings.warnings_recordConstraint]
      exact hf
    cases hwarning : c.warning? r negated field shown with
    | none => exact hrecorded
    | some message =>
      intro w hw
      rcases Findings.mem_appendOnce_iff.mp hw with hw | rfl
      · exact hrecorded w hw
      · simp only [Constraint.warning?, hhas, Bool.not_true] at hwarning
        obtain ⟨_, rfl⟩ : _ ∧ _ = w := by simpa using hwarning
        simp only [startsWith, String.toList_append, List.append_assoc]
        rfl

end Verdict
