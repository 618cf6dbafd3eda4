import Verdict.Proofs.Mutation.Alike
import Verdict.Proofs.Mutation.Tidy

/-!
# Proofs/Mutation/Below — the next mark is a free one

    copies, runs, kept results ── marks ──▸ 0 … nextMark - 1 │ nextMark … free

Copies and answers take their marks from the next one on.  So wherever transforms give out no containers
but those that they were given and new ones, no container on a desk has a mark from the next one on
(`Desk.IsBelow.finish`), and the results that are kept after any calls have none either
(`Mutator.keptMarks_lt_nextMark_run`).
-/

namespace Verdict

namespace Desk

/-- A desk without containers that have a mark from the next one on. -/
structure IsBelow (d : Desk) : Prop where
  copies : ∀ c ∈ d.copies, ∀ n ∈ c.value.marks, n < d.nextMark
  inputs : ∀ r ∈ d.runs, ∀ n ∈ r.input.marks, n < d.nextMark
  outcomes : ∀ r ∈ d.runs, ∀ v, r.outcome = some (.ok v) → ∀ n ∈ v.marks, n < d.nextMark
  cache : ∀ e ∈ d.cache, ∀ n ∈ e.2.marks, n < d.nextMark

variable {d : Desk} {v : Value}

/-- A write of what has marks in use shows none but these. -/
theorem IsBelow.apply (h : d.IsBelow) {w : Write} (hafter : ∀ n ∈ w.after.marks, n < d.nextMark)
    (i : Nat) : (d.apply i w).IsBelow := by
  have helsewhere : ∀ {u : Value}, (∀ n ∈ u.marks, n < d.nextMark) →
      ∀ n ∈ (w.applyElsewhere u).marks, n < d.nextMark := fun hu n hn =>
    (Write.mem_marks_applyElsewhere hn).elim (hu n) (hafter n)
  constructor
  case copies =>
    intro c' hc' n hn
    obtain ⟨j, hj, rfl⟩ := List.mem_mapIdx.mp hc'
    have hbefore := h.copies _ (List.getElem_mem hj)
    dsimp only at hn
    split at hn
    · exact (Write.mem_marks_applyTo hn).elim (hbefore n) (hafter n)
    · exact helsewhere hbefore n hn
  case inputs =>
    intro r' hr' n hn
    obtain ⟨r, hr, rfl⟩ := List.mem_map.mp hr'
    exact helsewhere (h.inputs r hr) n hn
  case outcomes =>
    intro r' hr' u hu n hn
    obtain ⟨r, hr, rfl⟩ := List.mem_map.mp hr'
    obtain ⟨o, ho, heq⟩ := Option.map_eq_some_iff.mp hu
    cases o with
    | error f => cases heq
    | ok u =>
      obtain rfl := Except.ok.inj heq
      exact helsewhere (h.outcomes r hr u ho) n hn
  case cache =>
    intro e' he' n hn
    obtain ⟨e, he, rfl⟩ := List.mem_map.mp he'
    exact helsewhere (h.cache e he) n hn

theorem IsBelow.put (h : d.IsBelow) (hv : ∀ n ∈ v.marks, n < d.nextMark) (i : Nat) (name : String) :
    (d.put i name v).IsBelow := by
  rw [Desk.put]
  split
  · exact h
  · next c hc =>
    split
    · next w hw =>
      exact h.apply (fun n hn => ((Path.mem_marks_of_write? hw).2 hn).elim
        (h.copies c (List.mem_of_getElem? hc) n) (hv n)) i
    · exact h

/-! ## Look-ups -/

/-- An input is part of the copy that it was found in, so a run that starts has no other containers. -/
theorem IsBelow.ask (h : d.IsBelow) (q : LookUp) : (d.ask q).IsBelow := by
  rcases ask_cases d q with ⟨-, faults, heq, -⟩ | ⟨-, key, f, kept, -, hkept, heq⟩ |
    ⟨key, f, -, hfound, -, heq⟩ <;> rw [heq]
  · exact ⟨h.copies, h.inputs, h.outcomes, h.cache⟩
  · exact h.put (h.cache _ (Entries.mem_of_find? hkept)) q.1 q.2.1
  · rw [found] at hfound
    split at hfound
    · cases hfound
    · next c hc =>
      refine ⟨h.copies, fun r hr n hn => ?_, fun r hr v hv => ?_, h.cache⟩
      · rcases of_mem_enroll hr with ⟨r', hr', hinput, -⟩ | ⟨hinput, -⟩ <;> rw [hinput] at hn
        · exact h.inputs r' hr' n hn
        · exact h.copies c (List.mem_of_getElem? hc) n (mem_marks_of_lookUp? hfound hn)
      · rcases of_mem_enroll hr with ⟨r', hr', -, houtcome⟩ | ⟨-, hnone⟩
        · exact h.outcomes r' hr' v (houtcome ▸ hv)
        · rw [hnone] at hv
          cases hv

theorem IsBelow.lookUpAll (h : d.IsBelow) (transforms : List (String × Transform)) :
    (d.lookUpAll transforms).IsBelow := by
  rw [lookUpAll_eq_foldl]
  exact (invariant h fun s _ hs => hs.ask s.2).2

/-! ## Deeds -/

/-- An answer has containers of what it was given, and new ones that take marks from the next one on. -/
theorem IsBelow.compute (h : d.IsBelow) (htransforms : ∀ r ∈ d.runs, r.transform.IgnoresMarks)
    (j : Nat) : (d.compute j).IsBelow := by
  cases hr : d.runs[j]? with
  | none => rwa [Desk.compute, hr]
  | some r =>
    have hmem := List.mem_of_getElem? hr
    have hle := r.le_applied d.copies d.nextMark
    rw [compute_eq hr]
    refine ⟨fun c hc n hn => Nat.lt_of_lt_of_le (h.copies c hc n hn) hle, fun r' hr' n hn => ?_,
      fun r' hr' v hv n hn => ?_, fun e he n hn => Nat.lt_of_lt_of_le (h.cache e he n hn) hle⟩
    · refine Nat.lt_of_lt_of_le ?_ hle
      rcases List.mem_or_eq_of_mem_set hr' with hr' | rfl
      · exact h.inputs r' hr' n hn
      · exact h.inputs r hmem n ((applied_same ..).2 ▸ hn)
    · rcases List.mem_or_eq_of_mem_set hr' with hr' | rfl
      · exact Nat.lt_of_lt_of_le (h.outcomes r' hr' v hv n hn) hle
      · cases hanswer : r.transform.apply r.input (r.criteria d.copies) with
        | error f =>
          rw [Run.applied, hanswer] at hv
          cases hv
        | ok a =>
          rw [Run.applied_of_ok hanswer] at hv hle ⊢
          obtain rfl := Except.ok.inj (Option.some.inj hv)
          rcases (Value.marks_settled d.nextMark a).2 n hn with hn | ⟨-, hlt⟩
          · refine Nat.lt_of_lt_of_le ?_ hle
            rcases (htransforms r hmem).mem_marks_apply hanswer hn with hn | hn
            · exact h.inputs r hmem n hn
            · obtain ⟨i, c, hc, hn⟩ := mem_marks_criteria hn
              exact h.copies c (List.mem_of_getElem? hc) n hn
          · exact hlt

theorem IsBelow.perform (h : d.IsBelow) (htransforms : ∀ r ∈ d.runs, r.transform.IgnoresMarks)
    (a : Deed) : (d.perform a).IsBelow := by
  cases a with
  | compute j => exact h.compute htransforms j
  | keep j =>
    rw [Desk.perform, Desk.keep]
    split
    · next hr =>
      refine ⟨h.copies, h.inputs, h.outcomes, fun e he => ?_⟩
      rcases Entries.mem_of_mem_put he with heq | he
      · exact h.outcomes _ (List.mem_of_getElem? hr) e.2 (by rw [heq])
      · exact h.cache e he
    · exact h
  | hand j i =>
    rw [Desk.perform, Desk.hand]
    split
    · exact h
    · next r hr =>
      split
      · next v hv => exact h.put (h.outcomes r (List.mem_of_getElem? hr) v hv) i r.name
      · cases d.copies[i]? with
        | none => exact h
        | some c =>
          rw [Option.map_some, Option.getD_some, fail_eq]
          exact ⟨h.copies, h.inputs, h.outcomes, h.cache⟩
      · exact h

/-- **No container has a mark from the next one on** when all runs have come to their end. -/
theorem IsBelow.finish (h : d.IsBelow) (htransforms : ∀ r ∈ d.runs, r.transform.IgnoresMarks)
    (caching : Bool) : (d.finish caching).IsBelow := by
  rw [finish_eq_deeds]
  refine (invariant (P := fun d => d.IsBelow ∧ ∀ r ∈ d.runs, r.transform.IgnoresMarks)
    ⟨h, htransforms⟩ fun s _ hs => ⟨hs.1.perform hs.2 s.2, fun r' hr' => ?_⟩).2.1
  obtain ⟨j, hj⟩ := List.getElem?_of_mem hr'
  obtain ⟨r, hr, -, htransform, -⟩ := perform_run hj
  exact htransform ▸ hs.2 r (List.mem_of_getElem? hr)

end Desk

namespace Mutator

/-! ## Calls -/

variable {m : Mutator}

theorem isBelow_placeItems (call : Nat) (items : List Value) : ∀ {d : Desk}, d.IsBelow →
    (m.placeItems call d items).1.IsBelow := by
  induction items with
  | nil => exact fun h => h
  | cons c rest ih =>
    intro d h
    rw [placeItems_cons]
    refine ih ?_
    rcases m.place_cases call d c with ⟨-, -, heq⟩ | ⟨-, heq⟩ <;> rw [heq]
    · obtain ⟨hle, hmarks⟩ := Value.marks_copied d.nextMark c
      refine ⟨fun c' hc' n hn => ?_, fun r hr n hn => Nat.lt_of_lt_of_le (h.inputs r hr n hn) hle,
        fun r hr v hv n hn => Nat.lt_of_lt_of_le (h.outcomes r hr v hv n hn) hle,
        fun e he n hn => Nat.lt_of_lt_of_le (h.cache e he n hn) hle⟩
      rcases List.mem_append.mp hc' with hc' | hc'
      · exact Nat.lt_of_lt_of_le (h.copies c' hc' n hn) hle
      · obtain rfl := List.mem_singleton.mp hc'
        exact (hmarks n hn).2
    · exact ⟨h.copies, h.inputs, h.outcomes, h.cache⟩

/-- Criteria that are placed start no runs, and their copies take marks from the next one on. -/
theorem isBelow_placeCalls (calls : List Value) : ∀ {call : Nat} {d : Desk}, d.IsBelow →
    (m.placeCalls call d calls).1.IsBelow ∧ (m.placeCalls call d calls).1.runs = d.runs := by
  induction calls with
  | nil => exact fun h => ⟨h, rfl⟩
  | cons c rest ih =>
    intro call d h
    rw [placeCalls, placeCall_eq]
    obtain ⟨hbelow, hruns⟩ := ih (isBelow_placeItems call c.criteria h)
    refine ⟨hbelow, hruns.trans ?_⟩
    rw [placeItems_fst]

/-- **The marks of kept results stay below the next one**, whatever is mutated. -/
theorem keptMarks_lt_nextMark_run (htransforms : ∀ e ∈ m.transforms, e.2.IgnoresMarks)
    (hbelow : ∀ n ∈ m.keptMarks, n < m.nextMark) (calls : List Value) :
    ∀ n ∈ (m.run calls).2.1.keptMarks, n < (m.run calls).2.1.nextMark := by
  have hfirst : Desk.IsBelow ⟨[], [], m.cache, m.nextMark, []⟩ :=
    ⟨List.forall_mem_nil _, List.forall_mem_nil _, List.forall_mem_nil _,
      fun e he n hn => hbelow n (List.mem_flatMap.mpr ⟨e, he, hn⟩)⟩
  obtain ⟨hplaced, hruns⟩ := isBelow_placeCalls (m := m) calls hfirst
  have hstarted := (Desk.started_lookUpAll hruns m.transforms).2
  have hfinished := (hplaced.lookUpAll m.transforms).finish
    (fun r hr => htransforms _ (hstarted.registered r hr)) m.caching
  intro n hn
  obtain ⟨e, he, hn⟩ := List.mem_flatMap.mp hn
  exact hfinished.cache e he n hn

end Mutator

end Verdict
