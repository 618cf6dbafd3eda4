import Mathlib.Data.List.Induction
import Verdict.Proofs.Operator.BuiltIn

/-!
# Proofs/Operator/Links — inverses that name each other

    a ⇄ b   ──register c, the inverse of b──▸   a → b ⇄ c

Links go in both directions (`Registry.IsSymmetric`).  Copying and unregistering keep that; registering
does so exactly where neither of the two names leaves another partner behind (`Registry.KeepsPartners`),
for a partner that is left behind goes on naming the one that left it.  So all registries on a course of
steps are symmetric exactly when no step of it parts partners (`Registry.isSymmetric_course_iff`).
-/

namespace Verdict.Registry

/-- What can be done to a registry. -/
inductive Step where
  | register (d : Declaration)
  | unregister (name : Value)
  | copy

/-- A copy: all operators are registered anew, and the links are taken over. -/
def copied (r : Registry) : Registry :=
  (r.operators.map Prod.snd).foldl insert ⟨[], r.negations⟩

/-- A registry after a step; a step that is refused leaves it as it was. -/
def after (r : Registry) : Step → Registry
  | .register d => (r.register d).toOption.getD r
  | .unregister name => ((r.unregister name).toOption.map Prod.snd).getD r
  | .copy => r.copied

/-- A registry after steps, one after another. -/
def afterAll (r : Registry) (steps : List Step) : Registry := steps.foldl after r

/-- Whoever names an inverse is named by it. -/
def IsSymmetric (r : Registry) : Prop :=
  ∀ a b, r.negation? (.str a) = some b → r.negation? (.str b) = some a

/-- Two names that have no partners beside each other. -/
def AreFree (r : Registry) (a b : String) : Prop :=
  ∀ x, x = a ∨ x = b → ∀ partner, r.negation? (.str x) = some partner → partner = a ∨ partner = b

/-- A step that parts no partners: an operator is registered with an inverse only where both of them are
free. -/
def KeepsPartners (r : Registry) : Step → Prop
  | .register d => ∀ o inverse, d.operator? = .ok o → d.negation = some inverse → r.AreFree o.name inverse
  | _ => True

variable {r : Registry} {a b name : String}

/-! ## Links after a step -/

theorem negation?_eq_find? (r : Registry) (x : String) :
    r.negation? (.str x) = Entries.find? x r.negations := rfl

theorem negation?_insert (r : Registry) (o : Operator) (x : String) :
    (r.insert o).negation? (.str x) = r.negation? (.str x) := rfl

theorem negation?_link (r : Registry) (a b x : String) : (r.link a b).negation? (.str x) =
    if x = b then some a else if x = a then some b else r.negation? (.str x) := by
  rw [negation?_eq_find?, negation?_eq_find?, link]
  by_cases hb : x = b
  · rw [if_pos hb, hb, Entries.find?_put_self]
  · rw [if_neg hb, Entries.find?_put_other hb]
    by_cases ha : x = a
    · rw [if_pos ha, ha, Entries.find?_put_self]
    · rw [if_neg ha, Entries.find?_put_other ha]

theorem find?_without_of_eq_none {links : List (String × String)} {x : String}
    (h : Entries.find? x links = none) (key : String) :
    Entries.find? x (Entries.without key links) = none := by
  by_cases hx : x = key
  · rw [hx, Entries.find?_without_self]
  · rw [Entries.find?_without_other hx, h]

/-- A name that is removed takes with it the link of a partner that names it. -/
theorem negation?_erase (r : Registry) (name x : String) : (r.erase name).negation? (.str x) =
    if x = name ∨ r.negation? (.str name) = some x ∧ r.negation? (.str x) = some name then none
    else r.negation? (.str x) := by
  have hself := Entries.find?_without_self name r.negations
  rw [negation?_eq_find?, negation?_eq_find?, negation?_eq_find?, erase]
  dsimp only
  by_cases hx : x = name
  · subst hx
    rw [if_pos (Or.inl rfl)]
    split
    · split
      · exact find?_without_of_eq_none hself _
      · exact hself
    · exact hself
  · have hother := Entries.find?_without_other hx r.negations
    cases hpartner : Entries.find? name r.negations with
    | none => simp [hx, hother]
    | some partner =>
      by_cases heq : x = partner
      · subst heq
        by_cases hback : Entries.find? x r.negations = some name <;> simp [hx, hother, hback]
      · have hbeside := Entries.find?_without_other heq (Entries.without name r.negations)
        simp only [hx, Option.some.injEq, Ne.symm heq, false_and, or_self, if_false]
        split
        · exact hbeside.trans hother
        · exact hother

theorem negations_foldl_insert (os : List Operator) (r : Registry) :
    (os.foldl insert r).negations = r.negations := by
  induction os generalizing r with
  | nil => rfl
  | cons o os ih => exact ih (r.insert o)

theorem negation?_copied (r : Registry) (x : String) :
    r.copied.negation? (.str x) = r.negation? (.str x) := by
  rw [negation?_eq_find?, negation?_eq_find?, copied, negations_foldl_insert]

/-! ## Symmetry after a step -/

theorem isSymmetric_congr {r' : Registry}
    (h : ∀ x, r'.negation? (.str x) = r.negation? (.str x)) : r'.IsSymmetric ↔ r.IsSymmetric := by
  simp only [IsSymmetric, h]

/-- **Linking keeps symmetry exactly between free names.** -/
theorem isSymmetric_link_iff (h : r.IsSymmetric) : (r.link a b).IsSymmetric ↔ r.AreFree a b := by
  have hlink := negation?_link r a b
  refine ⟨fun hlinked x hx partner hpartner => ?_, fun hfree x y hxy => ?_⟩
  · -- A partner beside the two names would still name one of them, and that one the other.
    refine Decidable.byContradiction fun hnot => ?_
    rw [not_or] at hnot
    have hback := hlinked partner x
    rw [hlink, if_neg hnot.2, if_neg hnot.1, hlink] at hback
    have hback := hback (h x partner hpartner)
    split at hback
    · exact hnot.1 (Option.some.inj hback).symm
    · rw [if_pos (hx.resolve_right ‹_›)] at hback
      exact hnot.2 (Option.some.inj hback).symm
  · rw [hlink] at hxy ⊢
    -- A name beside the two keeps its partner, which is neither of them as both are free.
    have hnot : ¬ (x = a ∨ x = b) → y ≠ a ∧ y ≠ b ∧ r.negation? (.str y) = some x := fun hx => by
      rw [not_or] at hx
      rw [if_neg hx.2, if_neg hx.1] at hxy
      have hyx := h x y hxy
      refine ⟨fun hy => ?_, fun hy => ?_, hyx⟩
      · exact (hfree y (.inl hy) x hyx).elim hx.1 hx.2
      · exact (hfree y (.inr hy) x hyx).elim hx.1 hx.2
    by_cases hb : x = b
    · rw [if_pos hb] at hxy
      obtain rfl := Option.some.inj hxy
      subst hb
      by_cases hab : a = x <;> simp [hab]
    · rw [if_neg hb] at hxy
      by_cases ha : x = a
      · rw [if_pos ha] at hxy
        obtain rfl := Option.some.inj hxy
        rw [if_pos rfl, ha]
      · obtain ⟨hya, hyb, hyx⟩ := hnot (not_or.mpr ⟨ha, hb⟩)
        rw [if_neg hyb, if_neg hya, hyx]

/-- **Where links are symmetric, nobody names an operator that is removed.** -/
theorem negation?_erase_ne (h : r.IsSymmetric) (name x : String) :
    (r.erase name).negation? (.str x) ≠ some name := by
  rw [negation?_erase]
  split
  · exact nofun
  · next hnot => exact fun hx => hnot (.inr ⟨h x name hx, hx⟩)

/-- Removing a name keeps symmetry. -/
theorem isSymmetric_erase (h : r.IsSymmetric) (name : String) : (r.erase name).IsSymmetric := by
  intro x y hxy
  have hy : y ≠ name := fun hy => negation?_erase_ne h name x (hy ▸ hxy)
  rw [negation?_erase] at hxy ⊢
  split at hxy
  · cases hxy
  · next hnot =>
    have hyx := h x y hxy
    rw [if_neg, hyx]
    rintro (hname | ⟨-, hname⟩)
    · exact hy hname
    · exact hnot (.inl (Option.some.inj (hyx.symm.trans hname)))

/-- **A step keeps symmetry exactly where it parts no partners.** -/
theorem isSymmetric_after_iff (h : r.IsSymmetric) (s : Step) :
    (r.after s).IsSymmetric ↔ r.KeepsPartners s := by
  cases s with
  | register d =>
    rw [after, register, KeepsPartners]
    cases ho : d.operator? with
    | error e => exact iff_of_true h nofun
    | ok o =>
      cases hn : d.negation with
      | none => exact iff_of_true ((isSymmetric_congr (negation?_insert r o)).mpr h) nofun
      | some inverse =>
        refine (isSymmetric_link_iff ((isSymmetric_congr (negation?_insert r o)).mpr h)).trans ?_
        exact ⟨fun hfree _ _ hok hsome => Except.ok.inj hok ▸ Option.some.inj hsome ▸ hfree,
          fun hfree => hfree o inverse rfl rfl⟩
  | unregister name =>
    refine iff_of_true ?_ trivial
    cases name with
    | str name => exact isSymmetric_erase h name
    | _ => exact h
  | copy => exact iff_of_true ((isSymmetric_congr (negation?_copied r)).mpr h) trivial

/-! ## Symmetry on a course of steps -/

theorem afterAll_nil (r : Registry) : r.afterAll [] = r := rfl

theorem afterAll_concat (r : Registry) (steps : List Step) (s : Step) :
    r.afterAll (steps ++ [s]) = (r.afterAll steps).after s := List.foldl_append

theorem isSymmetric_empty : empty.IsSymmetric := nofun

theorem isSymmetric_builtIn (now : DateTime) : (builtIn now).IsSymmetric := by
  have hback : ∀ e ∈ (builtIn now).negations,
      Entries.find? e.2 (builtIn now).negations = some e.1 := by
    rw [negations_builtIn]
    decide +kernel
  generalize builtIn now = r at hback
  exact fun a b hab => hback (a, b) (Entries.mem_of_find? hab)

/-- **All registries on a course of steps are symmetric exactly when no step parts partners**, where the
first one has no operators or the built-in ones; and where one of them is symmetric, nobody names an
operator that is unregistered from it. -/
theorem isSymmetric_course_iff (hr : r = empty ∨ ∃ now, r = builtIn now) (steps : List Step) :
    ((∀ before, before <+: steps → (r.afterAll before).IsSymmetric) ↔
      ∀ before s, before ++ [s] <+: steps → (r.afterAll before).KeepsPartners s) ∧
    ∀ before name, before ++ [.unregister (.str name)] <+: steps →
      (r.afterAll before).IsSymmetric →
      ∀ x, (r.afterAll (before ++ [.unregister (.str name)])).negation? (.str x) ≠ some name := by
  refine ⟨⟨fun hall before s hs => ?_, fun hkeeps before => ?_⟩, fun before name _ h x => ?_⟩
  · have hbefore := hall before ((List.prefix_append before [s]).trans hs)
    have hafter := hall (before ++ [s]) hs
    rw [afterAll_concat] at hafter
    exact (isSymmetric_after_iff hbefore s).mp hafter
  · induction before using List.reverseRecOn with
    | nil =>
      rintro -
      rw [afterAll_nil]
      rcases hr with rfl | ⟨now, rfl⟩
      · exact isSymmetric_empty
      · exact isSymmetric_builtIn now
    | append_singleton before s ih =>
      intro hs
      have hbefore := ih ((List.prefix_append before [s]).trans hs)
      rw [afterAll_concat]
      exact (isSymmetric_after_iff hbefore s).mpr (hkeeps before s hs)
  · rw [afterAll_concat]
    exact negation?_erase_ne h name x

/-- Two operators with an inverse each, of which one is removed and registered anew with the other's. -/
theorem isSymmetric_course_of_reregistered :
    let declare (name inverse : String) : Step :=
      .register ⟨name, .custom, ["any"], .ofRelation fun _ _ => true, some inverse⟩
    let steps : List Step :=
      [declare "even" "odd", .copy, .unregister (.str "odd"), declare "same" "odd"]
    (empty = empty ∨ ∃ now, empty = builtIn now) ∧
    ((∀ before, before <+: steps → (empty.afterAll before).IsSymmetric) ↔
      ∀ before s, before ++ [s] <+: steps → (empty.afterAll before).KeepsPartners s) ∧
    ∀ before name, before ++ [.unregister (.str name)] <+: steps →
      (empty.afterAll before).IsSymmetric →
      ∀ x, (empty.afterAll (before ++ [.unregister (.str name)])).negation? (.str x) ≠ some name :=
  ⟨.inl rfl, isSymmetric_course_iff (.inl rfl) _⟩

/-- **A partner that is left behind goes on naming the one that left it**, also when that one is
unregistered. -/
theorem negation?_left_behind :
    let declare (name inverse : String) : Step :=
      .register ⟨name, .custom, ["any"], .ofRelation fun _ _ => true, some inverse⟩
    let r := empty.afterAll [declare "even" "odd", declare "same" "odd"]
    r.negation? (.str "even") = some "odd" ∧ r.negation? (.str "odd") = some "same" ∧
      (r.after (.unregister (.str "odd"))).negation? (.str "even") = some "odd" := by
  decide +kernel

end Verdict.Registry
