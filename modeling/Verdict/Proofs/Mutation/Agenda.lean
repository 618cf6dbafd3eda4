import Verdict.Proofs.Mutation.Desk

/-!
# Proofs/Mutation/Agenda — the deeds of a desk

    round 0   round 1   round 2
    compute ─▸ keep ─▸ hand ─▸ … ─▸ hand        a run that does not pause
              compute ─▸ keep ─▸ hand ─▸ …      a run that pauses once

To deliver is to keep and then to hand to one copy after another; so all that happens on a desk is a list
of **deeds** that is known beforehand (`Desk.finish_eq_deeds`).  However often transforms pause, the
deeds of one run come in their order: it is applied once, and after that kept and handed to each copy
that waits (`Desk.filter_deeds`, `Desk.deeds_perm`).
-/

namespace Verdict

namespace Event

/-- The run that an event is of. -/
def run : Event → Nat
  | .compute j => j
  | .deliver j => j

/-- The events of one run in a round. -/
def ofRun (round j pauses : Nat) : List Event :=
  if pauses = round then [.compute j] else if pauses + 1 = round then [.deliver j] else []

theorem run_of_mem_ofRun {round j pauses : Nat} {e : Event} (h : e ∈ ofRun round j pauses) :
    e.run = j := by
  unfold ofRun at h
  split at h
  · rw [List.mem_singleton.mp h, run]
  · split at h
    · rw [List.mem_singleton.mp h, run]
    · cases h

theorem ofRound_cons (round j p : Nat) (pauses : List Nat) :
    ofRound round j (p :: pauses) = ofRun round j p ++ ofRound round (j + 1) pauses := rfl

theorem run_of_mem_ofRound {round : Nat} {e : Event} {pauses : List Nat} : ∀ {first : Nat},
    e ∈ ofRound round first pauses → first ≤ e.run ∧ e.run < first + pauses.length := by
  induction pauses with
  | nil => exact fun h => by cases h
  | cons p rest ih =>
    intro first h
    rw [List.length_cons]
    rcases List.mem_append.mp (ofRound_cons round first p rest ▸ h) with h | h
    · rw [run_of_mem_ofRun h]
      omega
    · obtain ⟨hle, hlt⟩ := ih h
      omega

/-- In a round, each run has its own events. -/
theorem filter_ofRound (round : Nat) {p : Nat} (pauses : List Nat) : ∀ {first j : Nat},
    pauses[j]? = some p →
    (ofRound round first pauses).filter (·.run = first + j) = ofRun round (first + j) p := by
  induction pauses with
  | nil => exact fun h => by cases h
  | cons p' rest ih =>
    intro first j h
    rw [ofRound_cons, List.filter_append]
    cases j with
    | zero =>
      obtain rfl := Option.some.inj h
      have hrest : (ofRound round (first + 1) rest).filter (·.run = first + 0) = [] :=
        List.filter_eq_nil_iff.mpr fun e he heq => by
          have hle := (run_of_mem_ofRound he).1
          have heq := of_decide_eq_true heq
          omega
      rw [hrest, List.append_nil]
      exact List.filter_eq_self.mpr fun e he => decide_eq_true (run_of_mem_ofRun he)
    | succ j =>
      have hfirst : (ofRun round first p').filter (·.run = first + (j + 1)) = [] :=
        List.filter_eq_nil_iff.mpr fun e he heq => by
          have hrun := run_of_mem_ofRun he
          have heq := of_decide_eq_true heq
          omega
      have hrest : (ofRound round (first + 1) rest).filter (·.run = first + 1 + j) =
          ofRun round (first + 1 + j) p := ih h
      rw [Nat.add_assoc, Nat.add_comm 1 j] at hrest
      rw [hfirst, List.nil_append, hrest]

/-- A run is applied in one round and delivered in the next one. -/
theorem flatMap_ofRun (j p : Nat) {rounds : Nat} (h : p + 2 ≤ rounds) :
    (List.range rounds).flatMap (fun round => ofRun round j p) = [.compute j, .deliver j] := by
  induction h with
  | refl =>
    have hbefore : (List.range p).flatMap (fun round => ofRun round j p) = [] :=
      List.flatMap_eq_nil_iff.mpr fun round hround => by
        have hlt := List.mem_range.mp hround
        rw [ofRun, if_neg (by omega), if_neg (by omega)]
    rw [List.range_succ, List.range_succ, List.flatMap_append, List.flatMap_append, hbefore]
    simp [ofRun]
  | step hle ih =>
    have hle : p + 2 ≤ _ := hle
    rw [List.range_succ, List.flatMap_append, ih, List.flatMap_singleton, ofRun,
      if_neg (by omega), if_neg (by omega), List.append_nil]

theorem le_foldl_max (ps : List Nat) : ∀ first : Nat,
    first ≤ ps.foldl max first ∧ ∀ p ∈ ps, p ≤ ps.foldl max first := by
  induction ps with
  | nil => exact fun first => ⟨Nat.le_refl _, List.forall_mem_nil _⟩
  | cons p rest ih =>
    intro first
    obtain ⟨hfirst, hrest⟩ := ih (max first p)
    rw [List.foldl_cons, List.forall_mem_cons]
    exact ⟨Nat.le_trans (Nat.le_max_left ..) hfirst, Nat.le_trans (Nat.le_max_right ..) hfirst, hrest⟩

/-- **Each run is applied once, and after that delivered once.** -/
theorem filter_agenda {pauses : List Nat} {j p : Nat} (h : pauses[j]? = some p) :
    (agenda pauses).filter (·.run = j) = [.compute j, .deliver j] := by
  have hround : ∀ round, (ofRound round 0 pauses).filter (·.run = j) = ofRun round j p := by
    intro round
    have hfilter : (ofRound round 0 pauses).filter (·.run = 0 + j) = ofRun round (0 + j) p :=
      filter_ofRound round pauses h
    rwa [Nat.zero_add] at hfilter
  rw [agenda, List.filter_flatMap]
  simp only [hround]
  exact flatMap_ofRun j p (Nat.add_le_add_right ((le_foldl_max pauses 0).2 p (List.mem_of_getElem? h)) 2)

theorem run_lt_of_mem_agenda {pauses : List Nat} {e : Event} (h : e ∈ agenda pauses) :
    e.run < pauses.length := by
  obtain ⟨round, -, he⟩ := List.mem_flatMap.mp h
  have hlt := (run_of_mem_ofRound he).2
  rwa [Nat.zero_add] at hlt

end Event

/-! ## Deeds -/

/-- What is done for a run: its transform is applied, its result is kept, or its outcome is handed to a
copy. -/
inductive Deed where
  | compute (j : Nat)
  | keep (j : Nat)
  | hand (j i : Nat)
  deriving DecidableEq, Repr

/-- The run that a deed is for. -/
def Deed.run : Deed → Nat
  | .compute j => j
  | .keep j => j
  | .hand j _ => j

/-- The deeds of delivering the outcome of a run. -/
def Deed.ofDelivery (caching : Bool) (j : Nat) (waiting : List Nat) : List Deed :=
  (if caching then [.keep j] else []) ++ waiting.map (.hand j)

/-- The deeds of a run, for the copies that wait for it. -/
def Deed.ofRun (caching : Bool) (j : Nat) (waiting : List Nat) : List Deed :=
  .compute j :: ofDelivery caching j waiting

/-- The deeds of an event, given the copies that wait for each run. -/
def Event.deeds (caching : Bool) (waiting : List (List Nat)) : Event → List Deed
  | .compute j => [.compute j]
  | .deliver j => (waiting[j]?.map (Deed.ofDelivery caching j)).getD []

theorem Deed.run_of_mem_ofDelivery {caching : Bool} {j : Nat} {waiting : List Nat} {a : Deed}
    (h : a ∈ ofDelivery caching j waiting) : a.run = j := by
  rcases List.mem_append.mp h with h | h
  · split at h
    · rw [List.mem_singleton.mp h, run]
    · cases h
  · obtain ⟨i, -, rfl⟩ := List.mem_map.mp h
    rfl

theorem Event.run_of_mem_deeds {caching : Bool} {waiting : List (List Nat)} {e : Event} {a : Deed}
    (h : a ∈ e.deeds caching waiting) : a.run = e.run := by
  cases e with
  | compute j => rw [List.mem_singleton.mp h, Deed.run, Event.run]
  | deliver j =>
    rw [deeds] at h
    cases hw : waiting[j]? with
    | none => rw [hw] at h; cases h
    | some copies =>
      rw [hw] at h
      exact Deed.run_of_mem_ofDelivery h

namespace Desk

/-- Do a deed. -/
def perform (d : Desk) : Deed → Desk
  | .compute j => d.compute j
  | .keep j => d.keep j
  | .hand j i => d.hand j i

/-- All deeds that are to be done on a desk, in order. -/
def deeds (caching : Bool) (d : Desk) : List Deed :=
  (Event.agenda (d.runs.map fun r => r.transform.pauses)).flatMap
    (Event.deeds caching (d.runs.map Run.copies))

variable {d : Desk} {caching : Bool}

theorem keep_runs (d : Desk) (j : Nat) : (d.keep j).runs = d.runs := by
  unfold keep
  split <;> rfl

theorem set_of_getElem? {α : Type} {l : List α} {j : Nat} {x : α} (h : l[j]? = some x) :
    l.set j x = l := by
  obtain ⟨hlt, rfl⟩ := List.getElem?_eq_some_iff.mp h
  exact List.set_getElem_self hlt

theorem perform_waiting (d : Desk) (a : Deed) :
    (d.perform a).runs.map Run.copies = d.runs.map Run.copies := by
  cases a with
  | compute j =>
    cases hr : d.runs[j]? with
    | none => rw [perform, compute, hr]
    | some r =>
      rw [perform, compute_eq hr, List.map_set, Run.applied_copies]
      exact set_of_getElem? (by rw [List.getElem?_map, hr, Option.map_some])
  | keep j => rw [perform, keep_runs]
  | hand j i => exact hand_waiting ..

theorem foldl_perform_waiting (as : List Deed) (d : Desk) :
    (as.foldl perform d).runs.map Run.copies = d.runs.map Run.copies := by
  induction as generalizing d with
  | nil => rfl
  | cons a rest ih => exact (ih _).trans (perform_waiting d a)

theorem step_eq_deeds (caching : Bool) (d : Desk) (e : Event) :
    d.step caching e = (e.deeds caching (d.runs.map Run.copies)).foldl perform d := by
  cases e with
  | compute j => rfl
  | deliver j =>
    rw [step, deliver, Event.deeds, List.getElem?_map]
    cases hr : d.runs[j]? with
    | none => rfl
    | some r =>
      dsimp only [Option.map_some, Option.getD_some, Deed.ofDelivery]
      rw [List.foldl_append, List.foldl_map]
      cases caching <;> rfl

/-- **What happens on a desk is its deeds.** -/
theorem finish_eq_deeds (caching : Bool) (d : Desk) :
    d.finish caching = (d.deeds caching).foldl perform d := by
  suffices h : ∀ (events : List Event) (d' : Desk),
      d'.runs.map Run.copies = d.runs.map Run.copies →
      events.foldl (step caching) d' =
        (events.flatMap (Event.deeds caching (d.runs.map Run.copies))).foldl perform d' from
    h _ d rfl
  intro events
  induction events with
  | nil => exact fun _ _ => rfl
  | cons e rest ih =>
    intro d' hd'
    rw [List.foldl_cons, List.flatMap_cons, List.foldl_append, step_eq_deeds, hd']
    exact ih _ ((foldl_perform_waiting _ d').trans hd')

/-- **The deeds of a run**: it is applied once, and then kept and handed to the copies that wait. -/
theorem filter_deeds (caching : Bool) {j : Nat} {r : Run} (h : d.runs[j]? = some r) :
    (d.deeds caching).filter (·.run = j) = Deed.ofRun caching j r.copies := by
  have hfilter : ∀ e : Event, (e.deeds caching (d.runs.map Run.copies)).filter (·.run = j) =
      if e.run = j then e.deeds caching (d.runs.map Run.copies) else [] := by
    intro e
    by_cases he : e.run = j
    · rw [if_pos he]
      exact List.filter_eq_self.mpr fun a ha =>
        decide_eq_true ((Event.run_of_mem_deeds ha).trans he)
    · rw [if_neg he]
      exact List.filter_eq_nil_iff.mpr fun a ha heq =>
        he ((Event.run_of_mem_deeds ha).symm.trans (of_decide_eq_true heq))
  have hevents : ∀ events : List Event,
      (events.flatMap (Event.deeds caching (d.runs.map Run.copies))).filter (·.run = j) =
        (events.filter (·.run = j)).flatMap (Event.deeds caching (d.runs.map Run.copies)) := by
    intro events
    induction events with
    | nil => rfl
    | cons e rest ih =>
      rw [List.flatMap_cons, List.filter_append, ih, hfilter, List.filter_cons]
      by_cases he : e.run = j <;> simp [he]
  have hpauses : (d.runs.map fun r => r.transform.pauses)[j]? = some r.transform.pauses := by
    rw [List.getElem?_map, h, Option.map_some]
  rw [deeds, hevents, Event.filter_agenda hpauses]
  simp [Event.deeds, Deed.ofRun, h]

theorem run_lt_of_mem_deeds {a : Deed} (h : a ∈ d.deeds caching) : a.run < d.runs.length := by
  obtain ⟨e, he, ha⟩ := List.mem_flatMap.mp h
  rw [Event.run_of_mem_deeds ha]
  have hlt := Event.run_lt_of_mem_agenda he
  rwa [List.length_map] at hlt

/-- Elements with numbers below a bound are those of each number. -/
theorem perm_flatMap_filter {α : Type} (f : α → Nat) (l : List α) : ∀ n : Nat, (∀ x ∈ l, f x < n) →
    l.Perm ((List.range n).flatMap fun j => l.filter (f · = j)) := by
  suffices h : ∀ n, (l.filter (f · < n)).Perm
      ((List.range n).flatMap fun j => l.filter (f · = j)) from fun n hn => by
    have hall : l.filter (f · < n) = l := List.filter_eq_self.mpr fun x hx => decide_eq_true (hn x hx)
    rw [← hall]
    exact (h n).trans (by rw [hall])
  intro n
  induction n with
  | zero => simp
  | succ n ih =>
    have hsplit := List.filter_append_perm (fun x => decide (f x < n)) (l.filter (f · < n + 1))
    rw [List.filter_filter, List.filter_filter] at hsplit
    have hbelow : l.filter (fun x => decide (f x < n) && decide (f x < n + 1)) =
        l.filter (f · < n) := List.filter_congr fun x _ => by
      rw [Bool.eq_iff_iff]
      simp only [Bool.and_eq_true, decide_eq_true_eq]
      omega
    have hlast : l.filter (fun x => !decide (f x < n) && decide (f x < n + 1)) =
        l.filter (f · = n) := List.filter_congr fun x _ => by
      rw [Bool.eq_iff_iff]
      simp only [Bool.and_eq_true, Bool.not_eq_true', decide_eq_false_iff_not, decide_eq_true_eq]
      omega
    rw [hbelow, hlast] at hsplit
    rw [List.range_succ, List.flatMap_append, List.flatMap_singleton]
    exact hsplit.symm.trans (ih.append_right _)

/-- **All deeds are those of the runs**, in some order. -/
theorem deeds_perm (caching : Bool) (d : Desk) :
    (d.deeds caching).Perm (d.runs.zipIdx.flatMap fun (r, j) => Deed.ofRun caching j r.copies) := by
  refine (perm_flatMap_filter Deed.run _ d.runs.length fun _ => run_lt_of_mem_deeds).trans
    (List.Perm.of_eq ?_)
  have hrange : List.range d.runs.length = d.runs.zipIdx.map Prod.snd := by
    rw [List.zipIdx_map_snd, ← List.range_eq_range']
  rw [hrange, List.flatMap_map, List.flatMap_def, List.flatMap_def]
  refine congrArg List.flatten (List.map_congr_left fun a ha => ?_)
  exact filter_deeds caching (List.mem_zipIdx_iff_getElem?.mp ha)

/-- Before anything else is done for a run, it is applied. -/
theorem compute_before {before after : List Deed} {a : Deed}
    (h : d.deeds caching = before ++ a :: after) (ha : a ≠ .compute a.run) :
    .compute a.run ∈ before := by
  have hmem : a ∈ d.deeds caching := by simp [h]
  have hlt := run_lt_of_mem_deeds hmem
  have hfilter := filter_deeds caching (List.getElem?_eq_getElem hlt)
  rw [h, List.filter_append, List.filter_cons_of_pos (p := fun b : Deed => decide (b.run = a.run))
    (decide_eq_true rfl), Deed.ofRun] at hfilter
  cases hbefore : before.filter (·.run = a.run) with
  | nil =>
    rw [hbefore] at hfilter
    exact absurd (List.cons.inj hfilter).1 ha
  | cons b rest =>
    rw [hbefore] at hfilter
    obtain rfl := (List.cons.inj hfilter).1
    exact (List.mem_filter.mp (hbefore ▸ List.mem_cons_self ..)).1

/-- A run is not applied again. -/
theorem not_compute_before {before after : List Deed} {j : Nat}
    (h : d.deeds caching = before ++ .compute j :: after) : .compute j ∉ before := by
  have hmem : .compute j ∈ d.deeds caching := by simp [h]
  have hlt : j < d.runs.length := run_lt_of_mem_deeds hmem
  have hfilter := filter_deeds caching (List.getElem?_eq_getElem hlt)
  rw [h, List.filter_append, List.filter_cons_of_pos (p := fun b : Deed => decide (b.run = j))
    (decide_eq_true rfl), Deed.ofRun] at hfilter
  intro hmem
  have hcount := congrArg (List.count (.compute j)) hfilter
  have hone : 0 < (before.filter (·.run = j)).count (.compute j) :=
    List.count_pos_iff.mpr (List.mem_filter.mpr ⟨hmem, decide_eq_true rfl⟩)
  have hrest : (Deed.ofDelivery caching j (d.runs[j]).copies).count (.compute j) = 0 :=
    List.count_eq_zero.mpr fun hmem => by
      rcases List.mem_append.mp hmem with hmem | hmem
      · split at hmem
        · cases List.mem_singleton.mp hmem
        · cases hmem
      · obtain ⟨_, -, heq⟩ := List.mem_map.mp hmem
        cases heq
  rw [List.count_append, List.count_cons_self, List.count_cons_self, hrest] at hcount
  omega

end Desk

end Verdict
