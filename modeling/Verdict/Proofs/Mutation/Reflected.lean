import Verdict.Proofs.Mutation.Beside
import Verdict.Proofs.Mutation.Renamed
import Verdict.Proofs.Mutation.SingleFlight

/-!
# Proofs/Mutation/Reflected — copies beside a desk that mirror its own

    copy i of d       own marks  n       ◂─┐
                                           ├─ the same runs, the same results
    copy e beside d   own marks  n + k   ◂─┘

Beside a desk are copies each of which mirrors one of its own, and waits for the runs that this one waits
for, as often (`Desk.Reflects`).  Look-ups, applications and deliveries keep that
(`Desk.Reflects.step`), so the copies beside the desk come to what its own copies come to
(`Desk.Reflects.finish`).
-/

namespace Verdict

/-! ## Look-ups of copies that mirror each other -/

namespace Value

variable {own held : List Nat} {shift : Nat} {v : Value}

/-- What holds only containers that are held elsewhere mirrors itself. -/
theorem Mirrors.of_held (hv : ∀ n ∈ v.marks, n ∈ held) (hown : ∀ p ∈ own, p + shift ∉ held) :
    v.Mirrors own shift held v := by
  refine seen_congr fun n hn => ?_
  have hnone : ∀ k, (∀ p ∈ own, p ∉ held → n ≠ p + k) → ownMark own k held n = none := fun k hk => by
    cases hmark : ownMark own k held n with
    | none => rfl
    | some p =>
      obtain ⟨hp, hheld, heq⟩ := ownMark_eq_some.mp hmark
      exact absurd heq (hk p hp hheld)
  rw [hnone shift fun p hp _ heq => hown p hp (heq ▸ hv n hn),
    hnone 0 fun p _ hheld heq => hheld (by rw [Nat.add_zero] at heq; exact heq ▸ hv n hn)]

end Value

namespace Field

variable {own held : List Nat} {shift : Nat} {root root' : Value}

/-- Values that hold the same have the same fields, under the same keys. -/
theorem lookUp?_congr (h : root'.unmarked = root.unmarked) (e : String × Transform) :
    (lookUp? root' e).map (Option.map Prod.fst) = (lookUp? root e).map (Option.map Prod.fst) := by
  have hkeys : ∀ v : Value, (lookUp? v.unmarked e).map (Option.map Prod.fst) =
      (lookUp? v e).map (Option.map Prod.fst) := fun v => by
    rw [lookUp?_remark Value.remarks_unmarked]
    rcases lookUp? v e with f | (_ | q) <;> rfl
  rw [← hkeys root', h, hkeys root]

/-- **Copies that mirror each other come to the same by their look-ups**, and go on to do so. -/
theorem browse_mirrors {cache : List (CacheKey × Value)}
    (hcache : ∀ k ∈ cache, ∀ n ∈ k.2.marks, n ∈ held) (hown : ∀ p ∈ own, p + shift ∉ held)
    (ts : List (String × Transform)) : ∀ {root root' : Value}, root'.Mirrors own shift held root →
    BrowsesIn (fun n => n ∈ own ∧ n ∉ held) cache root ts →
    (browse cache root' ts).1.Mirrors own shift held (browse cache root ts).1 ∧
      (browse cache root' ts).2 = (browse cache root ts).2 ∧
      BrowsesIn (fun n => ∃ p ∈ own, p ∉ held ∧ n = p + shift) cache root' ts := by
  induction ts with
  | nil => exact fun h _ => ⟨h, rfl, trivial⟩
  | cons e rest ih =>
    intro root root' h hbrowses
    have hsame := lookUp?_congr h.unmarked_eq e
    rcases hlook : lookUp? root e with f | (_ | q) <;>
      rcases hlook' : lookUp? root' e with f' | (_ | q') <;> rw [hlook, hlook'] at hsame <;>
      try cases hsame
    · obtain ⟨hmirrors, hasked, hrest⟩ := ih h ((browsesIn_of_error hlook).mp hbrowses)
      rw [browse_of_error cache hlook, browse_of_error cache hlook', hasked]
      exact ⟨hmirrors, rfl, (browsesIn_of_error hlook').mpr hrest⟩
    · obtain ⟨hmirrors, hasked, hrest⟩ := ih h ((browsesIn_of_none hlook).mp hbrowses)
      rw [browse_of_none cache hlook, browse_of_none cache hlook', hasked]
      exact ⟨hmirrors, rfl, (browsesIn_of_none hlook').mpr hrest⟩
    · have hkey : q'.1 = q.1 := Option.some.inj (Except.ok.inj hsame)
      cases hkept : Entries.find? q.1 cache with
      | none =>
        have hkept' := hkey.symm ▸ hkept
        obtain ⟨hmirrors, hasked, hrest⟩ := ih h ((browsesIn_of_waits hlook hkept).mp hbrowses)
        rw [browse_of_waits hlook hkept, browse_of_waits hlook' hkept', hasked, hkey]
        exact ⟨hmirrors, rfl, (browsesIn_of_waits hlook' hkept').mpr hrest⟩
      | some v =>
        have hkept' := hkey.symm ▸ hkept
        have hv : ∀ n ∈ v.marks, n ∈ held := hcache _ (Entries.mem_of_find? hkept)
        obtain ⟨haccepts, hlater⟩ := (browsesIn_of_kept hlook hkept).mp hbrowses
        obtain ⟨hmirrors, haccepts'⟩ := h.accept (.of_held hv hown) haccepts
        rw [browse_of_kept hlook hkept, browse_of_kept hlook' hkept']
        obtain ⟨hmirrors, hasked, hrest⟩ := ih hmirrors hlater
        exact ⟨hmirrors, hasked, (browsesIn_of_kept hlook' hkept').mpr ⟨haccepts', hrest⟩⟩

end Field

/-! ## Copies beside a desk -/

/-- Which containers copies have of their own: those of a desk, and those beside it, each of which has
the containers of one of them, moved on. -/
structure Layout where
  own : Nat → List Nat
  /-- How many copies there are beside the desk. -/
  size : Nat
  model : Nat → Nat
  shift : Nat → Nat
  inside {i j n : Nat} : n ∈ own i → n ∈ own j → i = j
  apart {i e n p : Nat} : n ∈ own i → e < size → p ∈ own (model e) → n ≠ p + shift e
  beside {e e' p p' : Nat} : e < size → e' < size → p ∈ own (model e) → p' ∈ own (model e') →
    p + shift e = p' + shift e' → e = e'

namespace Layout

/-- The containers of a copy of the desk. -/
def Has (l : Layout) (i n : Nat) : Prop := n ∈ l.own i

/-- The containers of a copy beside the desk. -/
def Owns (l : Layout) (e n : Nat) : Prop := e < l.size ∧ ∃ p ∈ l.own (l.model e), n = p + l.shift e

theorem parted (l : Layout) : Desk.Parted l.Has l.Owns where
  inside := fun hi hj => l.inside hi hj
  apart := by
    rintro i e n hn ⟨he, p, hp, heq⟩
    exact l.apart hn he hp heq
  beside := by
    rintro e e' n ⟨he, p, hp, rfl⟩ ⟨he', p', hp', heq⟩
    exact l.beside he he' hp hp' heq

end Layout

namespace Desk

/-- Copies beside a desk of a single call that wait for its runs as copies of its own do. -/
structure WaitsAlike (l : Layout) (waiting : CacheKey → List Nat) (d : Desk) : Prop where
  calls : ∀ c ∈ d.copies, c.call = 0
  copies : ∀ r ∈ d.runs, ∀ i ∈ r.copies, i < d.copies.length
  places : ∀ r ∈ d.runs, ∀ i ∈ waiting r.key, ∃ e < l.size, i = d.copies.length + e
  counts : ∀ r ∈ d.runs, ∀ e < l.size,
    (waiting r.key).count (d.copies.length + e) = r.copies.count (l.model e)
  transforms : ∀ r ∈ d.runs, r.transform.IgnoresMarks

/-- Copies beside a desk that mirror copies of its own, and wait for the runs that these wait for. -/
structure Reflects (l : Layout) (kept : List Nat) (waiting : CacheKey → List Nat) (d : Desk)
    (more : List WorkingCopy) : Prop extends WaitsAlike l waiting d where
  owned : d.IsOwned l.Has kept
  size : more.length = l.size
  mirrors {e : Nat} {x : WorkingCopy} : more[e]? = some x → ∃ c, d.copies[l.model e]? = some c ∧
    x.value.Mirrors (l.own (l.model e)) (l.shift e) (d.held kept) c.value
  areOwned : AreOwned l.Owns (d.held kept) more
  avoids {e n : Nat} : l.Owns e n → n ∉ d.held kept
  below {e n : Nat} : l.Owns e n → n < d.nextMark
  faults : d.faults = []

variable {l : Layout} {own : Nat → Nat → Prop} {kept : List Nat} {waiting : CacheKey → List Nat}
  {d : Desk} {more : List WorkingCopy} {j : Nat} {r : Run}

/-- What happens to runs but their input and outcome does not change who waits for them. -/
theorem WaitsAlike.later {d' : Desk} (h : d.WaitsAlike l waiting)
    (hcalls : d'.copies.map WorkingCopy.call = d.copies.map WorkingCopy.call)
    (hruns : ∀ r' ∈ d'.runs, ∃ r ∈ d.runs, r'.key = r.key ∧ r'.copies = r.copies ∧
      r'.transform = r.transform) : d'.WaitsAlike l waiting := by
  have hlength := length_copies_of_calls hcalls
  constructor
  case calls => exact forall_call_of_calls hcalls h.calls
  all_goals
    intro r' hr'
    obtain ⟨r, hr, hkey, hwaits, htransform⟩ := hruns r' hr'
  case copies =>
    rw [hwaits, hlength]
    exact h.copies r hr
  case places =>
    rw [hkey, hlength]
    exact h.places r hr
  case counts =>
    rw [hkey, hwaits, hlength]
    exact h.counts r hr
  case transforms => exact htransform ▸ h.transforms r hr

/-! ## Applying -/

theorem mem_marks_criteria {n : Nat} (h : n ∈ (r.criteria d.copies).marks) :
    ∃ (i : Nat) (c : WorkingCopy), d.copies[i]? = some c ∧ n ∈ c.value.marks := by
  rw [Run.criteria] at h
  cases hc : r.copies.head?.bind fun i => d.copies[i]? with
  | none => rw [hc] at h; cases h
  | some c =>
    rw [hc] at h
    obtain ⟨i, -, hi⟩ := Option.bind_eq_some_iff.mp hc
    exact ⟨i, c, hi, h⟩

/-- An outcome has marks of what the transform was given, and new ones. -/
theorem mem_outcomeMarks_applied (ht : r.transform.IgnoresMarks) {copies : List WorkingCopy}
    {next n : Nat} (h : n ∈ (r.applied copies next).1.outcomeMarks) :
    n ∈ r.input.marks ∨ n ∈ (r.criteria copies).marks ∨ next ≤ n := by
  cases happly : r.transform.apply r.input (r.criteria copies) with
  | error f => rw [Run.applied, happly] at h; cases h
  | ok a =>
    rw [Run.applied_of_ok happly] at h
    rcases (Value.marks_settled next a).2 n h with hn | ⟨hn, -⟩
    · exact (ht.mem_marks_apply happly hn).imp_right .inl
    · exact .inr (.inr hn)

theorem held_compute (hr : d.runs[j]? = some r) (hnone : r.outcome = none) (kept : List Nat) :
    d.held kept ⊆ (d.compute j).held kept ∧ ∀ n ∈ (d.compute j).held kept, n ∈ d.held kept ∨
      n ∈ (r.applied d.copies d.nextMark).1.outcomeMarks := by
  rw [compute_eq hr, held, held, outcomeMarks, outcomeMarks]
  dsimp only
  refine ⟨fun n hn => ?_, fun n hn => ?_⟩
  · refine List.mem_append.mpr ((List.mem_append.mp hn).imp_right fun hn => ?_)
    obtain ⟨r', hr', hn⟩ := List.mem_flatMap.mp hn
    obtain ⟨k, hk⟩ := List.getElem?_of_mem hr'
    have hne : j ≠ k := fun heq => by
      obtain rfl := Option.some.inj ((heq ▸ hr).symm.trans hk)
      rw [Run.outcomeMarks, hnone] at hn
      cases hn
    refine List.mem_flatMap.mpr ⟨r', List.mem_of_getElem? (i := k) ?_, hn⟩
    rwa [List.getElem?_set_ne hne]
  · rcases List.mem_append.mp hn with hn | hn
    · exact .inl (List.mem_append_left _ hn)
    · obtain ⟨r', hr', hn⟩ := List.mem_flatMap.mp hn
      rcases List.mem_or_eq_of_mem_set hr' with hr' | rfl
      · exact .inl (List.mem_append_right _ (List.mem_flatMap.mpr ⟨r', hr', hn⟩))
      · exact .inr hn

/-- What a run that is applied keeps. -/
theorem applied_same (copies : List WorkingCopy) (next : Nat) (r : Run) :
    (r.applied copies next).1.transform = r.transform ∧ (r.applied copies next).1.input = r.input := by
  unfold Run.applied
  split <;> exact ⟨rfl, rfl⟩

theorem mem_runs_compute (hr : d.runs[j]? = some r) {r' : Run} (hr' : r' ∈ (d.compute j).runs) :
    ∃ r'' ∈ d.runs, r'.key = r''.key ∧ r'.copies = r''.copies ∧ r'.transform = r''.transform ∧
      r'.input = r''.input := by
  rw [compute_eq hr] at hr'
  rcases List.mem_or_eq_of_mem_set hr' with hr' | rfl
  · exact ⟨r', hr', rfl, rfl, rfl, rfl⟩
  · obtain ⟨htransform, hinput⟩ := applied_same d.copies d.nextMark r
    exact ⟨r, List.mem_of_getElem? hr, Run.applied_key .., Run.applied_copies .., htransform, hinput⟩

theorem IsOwned.compute (h : d.IsOwned own kept) (hr : d.runs[j]? = some r)
    (hnone : r.outcome = none) : (d.compute j).IsOwned own kept := by
  have hheld := (held_compute hr hnone kept).1
  have hcopies : (d.compute j).copies = d.copies := by rw [compute_eq hr]
  have hcache : (d.compute j).cache = d.cache := by rw [compute_eq hr]
  refine ⟨fun hc n hn => ?_, fun r' hr' n hn => ?_, fun e he n hn => ?_⟩
  · exact (h.copies (hcopies ▸ hc) n hn).imp_right fun hn => hheld hn
  · obtain ⟨r'', hr'', -, -, -, hinput⟩ := mem_runs_compute hr hr'
    exact (h.inputs r'' hr'' n (hinput ▸ hn)).imp_right fun hn => hheld hn
  · exact hheld (h.cache e (hcache ▸ he) n hn)

/-- A call without a fault after some events has had none before. -/
theorem find?_fault_of_steps {caching : Bool} {call : Nat} (events : List Event)
    (h : Entries.find? call (events.foldl (Desk.step caching) d).faults = none) :
    Entries.find? call d.faults = none := by
  refine Option.eq_none_iff_forall_ne_some.mpr fun f hf => ?_
  have hlast := (invariant (f := Desk.step caching) (l := events)
    (P := fun d' => (Entries.find? call d'.faults).isSome) (Option.isSome_of_eq_some hf)
    fun s _ hs => by
      rw [step_eq_deeds]
      exact (invariant (P := fun d' => (Entries.find? call d'.faults).isSome) hs
        fun s _ hs => isSome_fault_perform hs s.2).2).2
  rw [h] at hlast
  cases hlast

namespace Reflects

/-- Where no copy of the desk waits for a run, none of those beside it does. -/
theorem waiting_eq_nil (h : d.Reflects l kept waiting more) (hr : r ∈ d.runs)
    (hnone : r.copies = []) : waiting r.key = [] := by
  refine List.eq_nil_iff_forall_not_mem.mpr fun i hi => ?_
  obtain ⟨e, he, rfl⟩ := h.places r hr i hi
  have hcount := h.counts r hr e he
  rw [hnone, List.count_nil] at hcount
  exact List.count_eq_zero.mp hcount hi

/-- **To apply a run keeps the copies beside a desk mirrored.** -/
theorem compute (h : d.Reflects l kept waiting more) (hr : d.runs[j]? = some r)
    (hnone : r.outcome = none) : (d.compute j).Reflects l kept waiting more := by
  obtain ⟨hsub, hnew⟩ := held_compute hr hnone kept
  have hmem := List.mem_of_getElem? hr
  have hcopies : (d.compute j).copies = d.copies := by rw [compute_eq hr]
  have hfaults : (d.compute j).faults = d.faults := by rw [compute_eq hr]
  have hnext : d.nextMark ≤ (d.compute j).nextMark := nextMark_le_perform d (.compute j)
  have hrun : ∀ r' ∈ (d.compute j).runs, ∃ r'' ∈ d.runs, r'.key = r''.key ∧
      r'.copies = r''.copies ∧ r'.transform = r''.transform := fun r' hr' => by
    obtain ⟨r'', hr'', hkey, hwaits, htransform, -⟩ := mem_runs_compute hr hr'
    exact ⟨r'', hr'', hkey, hwaits, htransform⟩
  refine ⟨h.later (congrArg _ hcopies) hrun, h.owned.compute hr hnone, h.size, fun hx => ?_,
    fun e x hx n hn => ?_, fun {e n} hn hheld => ?_,
    fun hn => Nat.lt_of_lt_of_le (h.below hn) hnext, hfaults.trans h.faults⟩
  · obtain ⟨c, hc, hmirrors⟩ := h.mirrors hx
    exact ⟨c, hcopies ▸ hc, hmirrors.mono hsub⟩
  · exact (h.areOwned e x hx n hn).imp_right fun hn => hsub hn
  · -- The outcome is of what copies of the desk hold, and of new containers.
    rcases hnew n hheld with hheld | houtcome
    · exact h.avoids hn hheld
    · have hown : ¬ ∃ i, n ∈ l.own i := fun ⟨i, hi⟩ => l.parted.apart hi hn
      rcases mem_outcomeMarks_applied (h.transforms r hmem) houtcome with hinput | hcriteria | hge
      · exact (h.owned.inputs r hmem n hinput).elim hown (h.avoids hn)
      · obtain ⟨i, c, hc, hmark⟩ := mem_marks_criteria hcriteria
        exact (h.owned.copies hc n hmark).elim (fun hi => hown ⟨i, hi⟩) (h.avoids hn)
      · exact absurd (h.below hn) (Nat.not_lt.mpr hge)

/-- To keep a result does so. -/
theorem keep (h : d.Reflects l kept waiting more) (j : Nat) :
    (d.keep j).Reflects l kept waiting more := by
  rw [Desk.keep]
  split
  · next key t copies input v hr =>
    have hv : ∀ n ∈ v.marks, n ∈ d.held kept := fun n hn =>
      mem_held_of_outcome (List.mem_of_getElem? hr) rfl hn
    refine ⟨⟨h.calls, h.copies, h.places, h.counts, h.transforms⟩,
      ⟨h.owned.copies, h.owned.inputs, fun e he => ?_⟩, h.size, h.mirrors, h.areOwned, h.avoids,
      h.below, h.faults⟩
    rcases Entries.eq_or_mem_of_mem_put he with rfl | he
    · exact hv
    · exact h.owned.cache e he
  · exact h

/-! ## Handing -/

variable {v : Value} {e : Nat} {x : WorkingCopy}

/-- What a copy beside the desk takes in, the one that it mirrors takes in too. -/
theorem acceptTimes (h : d.Reflects l kept waiting more) (hr : d.runs[j]? = some r)
    (hv : r.outcome = some (.ok v)) {d' : Desk}
    (hhanded : HasHanded l.Has kept r.key.1 v r.copies d d')
    (hx : more[e]? = some x) : ∃ c, d'.copies[l.model e]? = some c ∧
      (x.value.acceptTimes r.key.1 v ((waiting r.key).count (d.copies.length + e))).Mirrors
        (l.own (l.model e)) (l.shift e) (d.held kept) c.value ∧
      ∀ k < (waiting r.key).count (d.copies.length + e),
        (x.value.acceptTimes r.key.1 v k).AcceptsIn (l.Owns e) r.key.1 v := by
  have he : e < l.size := h.size ▸ (List.getElem?_eq_some_iff.mp hx).1
  obtain ⟨c, hc, hmirrors⟩ := h.mirrors hx
  have hheld : ∀ n ∈ v.marks, n ∈ d.held kept := fun n hn =>
    mem_held_of_outcome (List.mem_of_getElem? hr) hv hn
  have hself : v.Mirrors (l.own (l.model e)) (l.shift e) (d.held kept) v :=
    .of_held hheld fun p hp => h.avoids ⟨he, p, hp, rfl⟩
  rw [h.counts r (List.mem_of_getElem? hr) e he]
  obtain ⟨hlast, hall⟩ := Value.Mirrors.acceptTimes hself hmirrors (hhanded.apart hc)
  refine ⟨_, hhanded.copies hc, hlast, fun k hk => (hall k hk).imp ?_⟩
  rintro n - ⟨p, hp, -, rfl⟩
  exact ⟨he, p, hp, rfl⟩

/-- Once a result is in all copies that wait for it, the copies beside the desk mirror those of the desk
again. -/
theorem handed (h : d.Reflects l kept waiting more) (hr : d.runs[j]? = some r)
    (hv : r.outcome = some (.ok v)) (hhanded : HasHanded l.Has kept r.key.1 v r.copies d d') :
    d'.Reflects l kept waiting (accepted r.key.1 v d.copies.length (waiting r.key) more) where
  toWaitsAlike := by
    obtain ⟨f, hruns⟩ := hhanded.runs
    refine h.later hhanded.calls fun r' hr' => ?_
    rw [hruns] at hr'
    obtain ⟨r'', hr'', rfl⟩ := List.mem_map.mp hr'
    exact ⟨r'', hr'', rfl, rfl, rfl⟩
  owned := hhanded.owned
  size := by rw [accepted, List.length_mapIdx, h.size]
  mirrors := fun hx => by
    rw [getElem?_accepted] at hx
    obtain ⟨x, hbefore, rfl⟩ := Option.map_eq_some_iff.mp hx
    obtain ⟨c, hc, hmirrors, -⟩ := h.acceptTimes hr hv hhanded hbefore
    rw [hhanded.held]
    exact ⟨c, hc, hmirrors⟩
  areOwned := fun e x hx n hn => by
    rw [getElem?_accepted] at hx
    obtain ⟨x, hbefore, rfl⟩ := Option.map_eq_some_iff.mp hx
    rw [hhanded.held]
    rcases Value.mem_marks_acceptTimes _ hn with hn | hn
    · exact h.areOwned e x hbefore n hn
    · exact .inr (mem_held_of_outcome (List.mem_of_getElem? hr) hv hn)
  avoids := fun hn => hhanded.held ▸ h.avoids hn
  below := fun hn => hhanded.nextMark ▸ h.below hn
  faults := hhanded.faults.trans h.faults

/-- **To hand a result to all that wait for it keeps the copies beside a desk mirrored.** -/
theorem hands (h : d.Reflects l kept waiting more) (hr : d.runs[j]? = some r)
    (hv : r.outcome = some (.ok v))
    (htrace : ∀ s ∈ trace perform d (r.copies.map (Deed.hand j)), s.1.HandsApart kept s.2) :
    ∃ more', (r.copies ++ waiting r.key).foldl (fun d i => d.hand j i) (d.beside more waiting) =
        (r.copies.foldl (fun d i => d.hand j i) d).beside more' waiting ∧
      (r.copies.foldl (fun d i => d.hand j i) d).Reflects l kept waiting more' := by
  have hmem := List.mem_of_getElem? hr
  have hhanded := h.owned.hands l.parted.inside r.copies hr hv htrace
  have hleft : r.copies.foldl (fun d i => d.hand j i) (d.beside more waiting) = _ :=
    hands_beside_left l.parted r.copies h.owned h.areOwned hr hv (h.copies r hmem) htrace
  generalize r.copies.foldl (fun d i => d.hand j i) d = d' at hhanded hleft ⊢
  obtain ⟨f, hruns⟩ := hhanded.runs
  have hlength := length_copies_of_calls hhanded.calls
  have hr' : d'.runs[j]? = some { r with input := f r.input } := by
    rw [hruns, List.getElem?_map, hr, Option.map_some]
  have hright : (waiting r.key).foldl (fun d i => d.hand j i) (d'.beside more waiting) = _ :=
    hands_beside_right l.parted hhanded.owned (fun howns => hhanded.held ▸ h.avoids howns) hr' hv _
      (hhanded.held ▸ h.areOwned) (by rw [hlength, h.size]; exact h.places r hmem)
      fun e x hx => by rw [hlength]; exact (h.acceptTimes hr hv hhanded hx).choose_spec.2.2
  have hreflects := h.handed hr hv hhanded
  rw [List.foldl_append, hleft, hright, hlength]
  exact ⟨_, rfl, hreflects⟩

/-! ## Rounds -/

variable {caching : Bool}

/-- A hand of a fault makes the call fail. -/
theorem outcome_ok (h : d.Reflects l kept waiting more) (hr : d.runs[j]? = some r) {i : Nat}
    {rest : List Nat} (hcopies : r.copies = i :: rest) (hdue : d.IsDue (.hand j i))
    (hfaults : Entries.find? 0 (r.copies.foldl (fun d i => d.hand j i) d).faults = none) :
    ∃ v, r.outcome = some (.ok v) := by
  obtain ⟨r', hr', houtcome⟩ := hdue
  obtain rfl := Option.some.inj (hr'.symm.trans hr)
  obtain ⟨o, ho⟩ := Option.ne_none_iff_exists'.mp fun hnone => by cases houtcome.mp hnone
  cases o with
  | ok v => exact ⟨v, ho⟩
  | error f =>
    have hi : i < d.copies.length :=
      h.copies r' (List.mem_of_getElem? hr) i (hcopies ▸ List.mem_cons_self ..)
    have hfailed := isSome_fault_of_receive (r := ⟨i, r'.key, .error f⟩) (List.getElem?_eq_getElem hi) rfl
    rw [h.calls _ (List.getElem_mem hi), ← hand_eq_receive hr ho] at hfailed
    have hlast := (invariant (f := fun d i => d.hand j i) (l := rest)
      (P := fun d' => (Entries.find? 0 d'.faults).isSome) hfailed
      fun s _ hs => isSome_fault_perform hs (.hand j s.2)).2
    rw [hcopies, List.foldl_cons] at hfaults
    rw [hfaults] at hlast
    cases hlast

/-- To deliver an outcome keeps the copies beside a desk mirrored. -/
theorem deliver (h : d.Reflects l kept waiting more) (hr : d.runs[j]? = some r)
    (htrace : ∀ s ∈ trace perform d (Deed.ofDelivery caching j r.copies),
      s.1.HandsApart kept s.2 ∧ s.1.IsDue s.2)
    (hfaults : Entries.find? 0 (d.deliver caching j).faults = none) :
    ∃ more', (d.beside more waiting).deliver caching j = (d.deliver caching j).beside more' waiting ∧
      (d.deliver caching j).Reflects l kept waiting more' := by
  have hkeeps : (if caching then (d.beside more waiting).keep j else d.beside more waiting) =
      (if caching then d.keep j else d).beside more waiting := by
    cases caching
    · rfl
    · exact keep_beside
  have hd : (if caching then d.keep j else d).Reflects l kept waiting more := by
    cases caching
    · exact h
    · exact h.keep j
  have hrun : (if caching then d.keep j else d).runs[j]? = some r := by
    cases caching
    · exact hr
    · exact (congrArg (·[j]?) (keep_runs d j)).trans hr
  have hstart : (if caching then [Deed.keep j] else []).foldl perform d =
      if caching then d.keep j else d := by
    cases caching <;> rfl
  rw [Deed.ofDelivery, trace_append, List.forall_mem_append, hstart] at htrace
  rw [Desk.deliver, hr] at hfaults
  rw [Desk.deliver, Desk.deliver, getElem?_runs_beside hr, hr]
  dsimp only at hfaults ⊢
  rw [hkeeps]
  generalize (if caching then d.keep j else d) = d₁ at hd hrun htrace hfaults ⊢
  cases hcopies : r.copies with
  | nil =>
    rw [hd.waiting_eq_nil (List.mem_of_getElem? hrun) hcopies]
    exact ⟨more, rfl, hd⟩
  | cons i rest =>
    have hdue : d₁.IsDue (.hand j i) := by
      rw [hcopies] at htrace
      exact (htrace.2 _ (List.mem_cons_self ..)).2
    obtain ⟨v, hv⟩ := hd.outcome_ok hrun hcopies hdue hfaults
    rw [← hcopies]
    exact hd.hands hrun hv fun s hs => (htrace.2 s hs).1

/-- **An event keeps the copies beside a desk mirrored.** -/
theorem step (h : d.Reflects l kept waiting more) {e : Event}
    (htrace : ∀ s ∈ trace perform d (e.deeds caching (d.runs.map Run.copies)),
      s.1.HandsApart kept s.2 ∧ s.1.IsDue s.2)
    (hfaults : Entries.find? 0 (d.step caching e).faults = none) :
    ∃ more', (d.beside more waiting).step caching e = (d.step caching e).beside more' waiting ∧
      (d.step caching e).Reflects l kept waiting more' := by
  cases e with
  | compute j =>
    obtain ⟨r, hr, hdue⟩ := (htrace _ (List.mem_singleton_self _)).2
    exact ⟨more, compute_beside h.copies fun r hr => h.waiting_eq_nil hr, h.compute hr (hdue.mpr rfl)⟩
  | deliver j =>
    cases hr : d.runs[j]? with
    | none =>
      have hstays : d.deliver caching j = d := by rw [Desk.deliver, hr]
      have hstays' : (d.beside more waiting).deliver caching j = d.beside more waiting := by
        rw [Desk.deliver, beside, List.getElem?_map, hr]
        rfl
      rw [Desk.step, Desk.step, hstays, hstays']
      exact ⟨more, rfl, h⟩
    | some r =>
      rw [Event.deeds, List.getElem?_map, hr] at htrace
      exact h.deliver hr htrace hfaults

/-- **At the end of all runs copies beside a desk mirror its own.** -/
theorem finish (h : d.Reflects l kept waiting more)
    (hflight : ∀ s ∈ d.flight caching, s.1.HandsApart kept s.2 ∧ s.1.IsDue s.2)
    (hfaults : Entries.find? 0 (d.finish caching).faults = none) :
    ∃ more', (d.beside more waiting).finish caching = (d.finish caching).beside more' waiting ∧
      (d.finish caching).Reflects l kept waiting more' := by
  suffices hall : ∀ (events : List Event) {d' : Desk} {more : List WorkingCopy},
      d'.Reflects l kept waiting more → d'.runs.map Run.copies = d.runs.map Run.copies →
      (∀ s ∈ trace perform d' (events.flatMap (Event.deeds caching (d.runs.map Run.copies))),
        s.1.HandsApart kept s.2 ∧ s.1.IsDue s.2) →
      Entries.find? 0 (events.foldl (Desk.step caching) d').faults = none →
      ∃ more', events.foldl (Desk.step caching) (d'.beside more waiting) =
          (events.foldl (Desk.step caching) d').beside more' waiting ∧
        (events.foldl (Desk.step caching) d').Reflects l kept waiting more' by
    have hpauses : (d.beside more waiting).runs.map (fun r => r.transform.pauses) =
        d.runs.map fun r => r.transform.pauses := by
      rw [beside, List.map_map]
      rfl
    rw [Desk.finish, hpauses]
    exact hall _ h rfl hflight hfaults
  intro events
  induction events with
  | nil => exact fun h _ _ _ => ⟨_, rfl, h⟩
  | cons e rest ih =>
    intro d' more h hwaiting htrace hfaults
    rw [List.flatMap_cons, trace_append, List.forall_mem_append, ← hwaiting, ← step_eq_deeds] at htrace
    obtain ⟨more', heq, hd⟩ := h.step htrace.1 (find?_fault_of_steps rest hfaults)
    rw [List.foldl_cons, List.foldl_cons, heq]
    refine ih hd ?_ (hwaiting ▸ htrace.2) hfaults
    rw [step_eq_deeds, foldl_perform_waiting, hwaiting]

end Reflects

end Desk

end Verdict
