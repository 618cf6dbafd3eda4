import Mathlib.Data.List.Nodup
import Verdict.Proofs.Mutation.Agenda
import Verdict.Proofs.Mutation.Delivery
import Verdict.Proofs.Value.Later

/-!
# Proofs/Mutation/Account — who made which value

    compute ──▸ application ──came to──▸ outcome ──keep──▸ kept result
                                            └─────hand──▸ receipt of a copy

A desk keeps no books.  Here they are: the **applications** of transforms, and the **receipts** of the
copies that outcomes are handed to.  Each key is applied once (`Desk.keys_applications`), each copy that
waits has its receipt (`Desk.waiting_receipts`), and every outcome and every kept result is what an
application under its key came to, as later writes left it (`Desk.Accounted`).
-/

namespace Verdict

/-- A transform as it is applied. -/
structure Application where
  key : CacheKey
  transform : Transform
  input : Value
  criteria : Value

/-- What a transform answers. -/
def Application.answer (a : Application) : Except Fault Value := a.transform.apply a.input a.criteria

/-- What an application came to: its fault, or the value it answered with, settled and later. -/
def Application.CameTo (a : Application) (o : Except Fault Value) : Prop :=
  match a.answer with
  | .error f => o = .error f
  | .ok v => ∃ next v', o = .ok v' ∧ (v.settled next).1.Later v'

/-- An outcome that a copy receives. -/
structure Receipt where
  copy : Nat
  key : CacheKey
  outcome : Except Fault Value

namespace Application

variable {a : Application} {o : Except Fault Value}

theorem CameTo.map (h : a.CameTo o) {f : Value → Value} (hf : ∀ v : Value, v.Later (f v)) :
    a.CameTo (o.map f) := by
  unfold CameTo at *
  split at h
  · rw [h]; rfl
  · obtain ⟨next, v', rfl, hlater⟩ := h
    exact ⟨next, f v', rfl, hlater.trans (hf v')⟩

theorem CameTo.eq_error (h : a.CameTo o) {f : Fault} (ha : a.answer = .error f) : o = .error f := by
  rwa [CameTo, ha] at h

theorem CameTo.of_ok {v : Value} (h : a.CameTo (.ok v)) :
    ∃ v₀ next, a.answer = .ok v₀ ∧ (v₀.settled next).1.Later v := by
  unfold CameTo at h
  split at h
  · cases h
  · next v₀ ha =>
    obtain ⟨next, v', heq, hlater⟩ := h
    obtain rfl := Except.ok.inj heq
    exact ⟨v₀, next, ha, hlater⟩

end Application

/-! ## Traces -/

/-- What is done, one thing after another, each with the desk that it is done on. -/
def Desk.trace {α : Type} (f : Desk → α → Desk) : Desk → List α → List (Desk × α)
  | _, [] => []
  | d, a :: rest => (d, a) :: trace f (f d a) rest

namespace Desk

section Trace

variable {α : Type} {f : Desk → α → Desk} {l : List α} {d : Desk}

theorem mem_trace {s : Desk × α} : ∀ {l : List α} {d : Desk}, s ∈ trace f d l →
    ∃ before after, l = before ++ s.2 :: after ∧ s.1 = before.foldl f d
  | a :: rest, d, h => by
    rcases List.mem_cons.mp h with rfl | h
    · exact ⟨[], rest, rfl, rfl⟩
    · obtain ⟨before, after, rfl, hs⟩ := mem_trace h
      exact ⟨a :: before, after, rfl, hs⟩

/-- **What each thing done keeps holds of every desk.** -/
theorem invariant {P : Desk → Prop} : ∀ {l : List α} {d : Desk}, P d →
    (∀ s ∈ trace f d l, P s.1 → P (f s.1 s.2)) → (∀ s ∈ trace f d l, P s.1) ∧ P (l.foldl f d)
  | [], _, hd, _ => ⟨List.forall_mem_nil _, hd⟩
  | _ :: _, _, hd, hstep => by
    obtain ⟨hfirst, hrest⟩ := List.forall_mem_cons.mp hstep
    obtain ⟨hall, hlast⟩ := invariant (hfirst hd) hrest
    exact ⟨List.forall_mem_cons.mpr ⟨hd, hall⟩, hlast⟩

/-- What is noted down of a trace, where it depends only on what is done. -/
theorem filterMap_trace {β : Type} {g : Desk → α → Option β} {g' : α → Option β} :
    ∀ {l : List α} {d : Desk}, (∀ s ∈ trace f d l, g s.1 s.2 = g' s.2) →
      (trace f d l).filterMap (fun s => g s.1 s.2) = l.filterMap g'
  | [], _, _ => rfl
  | a :: rest, d, h => by
    obtain ⟨hfirst, hrest⟩ := List.forall_mem_cons.mp h
    rw [trace, List.filterMap_cons, List.filterMap_cons, filterMap_trace hrest]
    dsimp only at hfirst ⊢
    rw [hfirst]

end Trace

end Desk

/-! ## What a deed does -/

/-- The application of the transform of a run. -/
def Run.application (copies : List WorkingCopy) (r : Run) : Application :=
  ⟨r.key, r.transform, r.input, r.criteria copies⟩

/-- A run that is applied has what its application came to. -/
theorem Run.exists_applied (copies : List WorkingCopy) (next : Nat) (r : Run) :
    ∃ o, (r.applied copies next).1 = { r with outcome := some o } ∧
      (r.application copies).CameTo o := by
  unfold applied Application.CameTo
  cases hanswer : (r.application copies).answer with
  | error f =>
    change r.transform.apply r.input (r.criteria copies) = _ at hanswer
    exact ⟨.error f, by rw [hanswer], rfl⟩
  | ok v =>
    change r.transform.apply r.input (r.criteria copies) = _ at hanswer
    exact ⟨.ok (v.settled next).1, by rw [hanswer], next, _, rfl, .refl⟩

/-- A run as a write leaves it: what it holds is changed. -/
def Run.through (f : Value → Value) (r : Run) : Run :=
  { r with input := f r.input, outcome := r.outcome.map fun o => o.map f }

/-- The key that a deed applies, of the keys of runs. -/
def Deed.applies? (keys : List CacheKey) : Deed → Option CacheKey
  | .compute j => keys[j]?
  | _ => none

/-- The copy that a deed hands to, and the key of what it hands, of the keys of runs. -/
def Deed.hands? (keys : List CacheKey) : Deed → Option (Nat × CacheKey)
  | .hand j i => keys[j]?.map fun key => (i, key)
  | _ => none

namespace Desk

variable {d : Desk} {caching : Bool} {a : Deed} {i j : Nat}

/-- A desk whose runs and kept results are those of another one, later. -/
structure IsLater (d d' : Desk) : Prop where
  change : ∃ f : Value → Value, (∀ v : Value, v.Later (f v)) ∧ d'.runs = d.runs.map (Run.through f) ∧
    d'.cache = d.cache.map fun e => (e.1, f e.2)
  calls : d'.copies.map WorkingCopy.call = d.copies.map WorkingCopy.call

/-- Desks whose copies are for the same calls have as many copies. -/
theorem length_copies_of_calls {d' : Desk}
    (h : d'.copies.map WorkingCopy.call = d.copies.map WorkingCopy.call) :
    d'.copies.length = d.copies.length := by
  have hlength := congrArg List.length h
  rwa [List.length_map, List.length_map] at hlength

theorem forall_call_of_calls {d' : Desk} {n : Nat}
    (h : d'.copies.map WorkingCopy.call = d.copies.map WorkingCopy.call)
    (hd : ∀ c ∈ d.copies, c.call = n) : ∀ c ∈ d'.copies, c.call = n := fun c' hc' => by
  have hmem := List.mem_map_of_mem (f := WorkingCopy.call) hc'
  rw [h] at hmem
  obtain ⟨c, hc, heq⟩ := List.mem_map.mp hmem
  exact heq.symm.trans (hd c hc)

theorem IsLater.refl (d : Desk) : d.IsLater d := by
  have hrun : Run.through id = id := funext fun r => by
    obtain ⟨key, t, copies, input, _ | (f | v)⟩ := r <;> rfl
  exact ⟨⟨id, fun v => .refl, by rw [hrun, List.map_id], (List.map_id _).symm⟩, rfl⟩

/-- Putting a value somewhere only writes. -/
theorem isLater_put (d : Desk) (i : Nat) (name : String) (v : Value) :
    d.IsLater (d.put i name v) ∧ (d.put i name v).faults = d.faults := by
  rw [put]
  split
  · exact ⟨.refl d, rfl⟩
  · split
    · next w hw =>
      refine ⟨⟨⟨w.applyElsewhere, fun v => .write .refl (Path.isFill_of_write? hw), rfl, rfl⟩, ?_⟩, rfl⟩
      refine List.ext_getElem? fun j => ?_
      rw [List.getElem?_map, List.getElem?_map, copies_apply, Option.map_map]
      rfl
    · exact ⟨.refl d, rfl⟩

/-- What handing out a receipt does: the value is put at the field of its name, or the call of the copy
fails. -/
def receive (d : Desk) (r : Receipt) : Desk :=
  match r.outcome with
  | .ok v => d.put r.copy r.key.1 v
  | .error f => ((d.copies[r.copy]?).map fun c => d.fail c.call f).getD d

theorem isLater_receive (d : Desk) (r : Receipt) : d.IsLater (d.receive r) := by
  rw [receive]
  split
  · exact (isLater_put ..).1
  · cases d.copies[r.copy]? with
    | none => exact .refl d
    | some c =>
      rw [Option.map_some, Option.getD_some, fail_eq]
      exact ⟨(IsLater.refl d).change, rfl⟩

/-- The application that a deed is. -/
def applied? (d : Desk) : Deed → Option Application
  | .compute j => d.runs[j]?.map (Run.application d.copies)
  | _ => none

/-- The receipt that a deed makes. -/
def receipt? (d : Desk) : Deed → Option Receipt
  | .hand j i => d.runs[j]?.bind fun r => r.outcome.map fun o => ⟨i, r.key, o⟩
  | _ => none

/-- A deed that is due: its run has an outcome, unless the deed is to apply it. -/
def IsDue (d : Desk) (a : Deed) : Prop :=
  ∃ r, d.runs[a.run]? = some r ∧ (r.outcome = none ↔ a = .compute a.run)

theorem hand_eq_receive {r : Run} {o : Except Fault Value} (hr : d.runs[j]? = some r)
    (ho : r.outcome = some o) : d.hand j i = d.receive ⟨i, r.key, o⟩ := by
  rw [hand, hr]
  dsimp only
  rw [ho]
  cases o <;> rfl

/-- A hand is received, if there is something to hand. -/
theorem hand_cases (d : Desk) (j i : Nat) : d.hand j i = d ∨ ∃ r, d.hand j i = d.receive r := by
  cases hr : d.runs[j]? with
  | none => exact .inl (by rw [hand, hr])
  | some r =>
    cases ho : r.outcome with
    | none =>
      refine .inl ?_
      rw [hand, hr]
      dsimp only
      rw [ho]
    | some o => exact .inr ⟨_, hand_eq_receive hr ho⟩

theorem isLater_hand (d : Desk) (j i : Nat) : d.IsLater (d.hand j i) := by
  rcases d.hand_cases j i with heq | ⟨r, heq⟩ <;> rw [heq]
  · exact .refl d
  · exact isLater_receive ..

/-- **What a deed can do that is due**: a run without an outcome gets one, the result of a run is kept, or
an outcome is received. -/
theorem perform_cases (h : d.IsDue a) :
    (∃ j r o next, a = .compute j ∧ d.runs[j]? = some r ∧ r.outcome = none ∧
      d.applied? a = some (r.application d.copies) ∧ (r.application d.copies).CameTo o ∧
      d.perform a = { d with
        runs := d.runs.set j { r with outcome := some o }
        nextMark := next }) ∨
    (∃ j r o, a = .keep j ∧ d.runs[j]? = some r ∧ r.outcome = some o ∧
      d.perform a = { d with
        cache := (o.toOption.map fun v => Entries.put r.key v d.cache).getD d.cache }) ∨
    (∃ j i r o, a = .hand j i ∧ d.runs[j]? = some r ∧ r.outcome = some o ∧
      d.receipt? a = some ⟨i, r.key, o⟩ ∧ d.perform a = d.receive ⟨i, r.key, o⟩) := by
  obtain ⟨r, hr, hdue⟩ := h
  cases a with
  | compute j =>
    obtain ⟨o, happlied, hcame⟩ := r.exists_applied d.copies d.nextMark
    refine .inl ⟨j, r, o, (r.applied d.copies d.nextMark).2, rfl, hr, hdue.mpr rfl,
      congrArg (Option.map _) hr, hcame, ?_⟩
    rw [← happlied]
    exact compute_eq hr
  | keep j =>
    obtain ⟨o, ho⟩ := Option.ne_none_iff_exists'.mp fun hnone => by cases hdue.mp hnone
    refine .inr (.inl ⟨j, r, o, rfl, hr, ho, ?_⟩)
    obtain ⟨key, t, copies, input, outcome⟩ := r
    obtain rfl : outcome = some o := ho
    change d.runs[j]? = _ at hr
    rw [perform, keep, hr]
    cases o <;> rfl
  | hand j i =>
    obtain ⟨o, ho⟩ := Option.ne_none_iff_exists'.mp fun hnone => by cases hdue.mp hnone
    refine .inr (.inr ⟨j, i, r, o, rfl, hr, ho, ?_, hand_eq_receive hr ho⟩)
    change d.runs[j]? = _ at hr
    rw [receipt?, hr, Option.bind_some, ho, Option.map_some]

/-- A run of a later desk has the key and the transform it had, and an outcome if it had one. -/
theorem IsLater.exists_run {d' : Desk} {r' : Run} (h : d.IsLater d') (hr' : d'.runs[j]? = some r') :
    ∃ r, d.runs[j]? = some r ∧ r'.key = r.key ∧ r'.transform = r.transform ∧
      (r'.outcome.isSome ↔ r.outcome.isSome) := by
  obtain ⟨⟨f, -, hruns, -⟩, -⟩ := h
  rw [hruns, List.getElem?_map] at hr'
  obtain ⟨r, hr, rfl⟩ := Option.map_eq_some_iff.mp hr'
  exact ⟨r, hr, rfl, rfl, by rw [Run.through, Option.isSome_map]⟩

/-- What a deed does to a run. -/
theorem perform_run {r' : Run} (h : (d.perform a).runs[j]? = some r') : ∃ r, d.runs[j]? = some r ∧
    r'.key = r.key ∧ r'.transform = r.transform ∧
      (r'.outcome.isSome ↔ r.outcome.isSome ∨ a = .compute j) := by
  cases a with
  | compute j' =>
    cases hr : d.runs[j']? with
    | none =>
      rw [perform, compute, hr] at h
      have hne : (Deed.compute j' : Deed) ≠ .compute j := fun heq => by
        cases heq
        cases h.symm.trans hr
      exact ⟨r', h, rfl, rfl, by simp [hne]⟩
    | some r =>
      rw [perform, compute_eq hr] at h
      dsimp only at h
      rw [List.getElem?_set] at h
      split at h
      · next heq =>
        subst heq
        have hlt := (List.getElem?_eq_some_iff.mp hr).1
        rw [if_pos hlt] at h
        obtain rfl := Option.some.inj h
        refine ⟨r, hr, Run.applied_key .., ?_, ?_⟩ <;> unfold Run.applied <;> split <;> simp
      · next hne =>
        have hne' : (Deed.compute j' : Deed) ≠ .compute j := fun heq => hne (by cases heq; rfl)
        exact ⟨r', h, rfl, rfl, by simp [hne']⟩
  | keep j' =>
    rw [perform, keep_runs] at h
    exact ⟨r', h, rfl, rfl, by simp⟩
  | hand j' i =>
    obtain ⟨r, hr, hkey, htransform, hsome⟩ := (isLater_hand d j' i).exists_run h
    exact ⟨r, hr, hkey, htransform, by simp [hsome]⟩

theorem perform_keys (d : Desk) (a : Deed) :
    (d.perform a).runs.map Run.key = d.runs.map Run.key := by
  refine List.ext_getElem? fun j => ?_
  have hlength : (d.perform a).runs.length = d.runs.length := by
    have hwaiting := congrArg List.length (perform_waiting d a)
    rwa [List.length_map, List.length_map] at hwaiting
  rw [List.getElem?_map, List.getElem?_map]
  cases h : (d.perform a).runs[j]? with
  | none =>
    rw [List.getElem?_eq_none_iff, hlength, ← List.getElem?_eq_none_iff] at h
    rw [h]
  | some r' =>
    obtain ⟨r, hr, hkey, -⟩ := perform_run h
    rw [hr, Option.map_some, Option.map_some, hkey]

theorem foldl_perform_keys (as : List Deed) (d : Desk) :
    (as.foldl perform d).runs.map Run.key = d.runs.map Run.key :=
  (invariant (P := fun d' => d'.runs.map Run.key = d.runs.map Run.key) rfl
    fun s _ h => (perform_keys s.1 s.2).trans h).2

/-- What deeds do to a run: it has an outcome when it had one or has been applied. -/
theorem run_foldl_perform {r' : Run} : ∀ {as : List Deed} {d : Desk},
    (as.foldl perform d).runs[j]? = some r' →
    ∃ r, d.runs[j]? = some r ∧ r'.key = r.key ∧ r'.transform = r.transform ∧
      (r'.outcome.isSome ↔ r.outcome.isSome ∨ .compute j ∈ as)
  | [], _, h => ⟨r', h, rfl, rfl, by simp⟩
  | a :: rest, d, h => by
    rw [List.foldl_cons] at h
    obtain ⟨r₁, hr₁, hkey₁, htransform₁, hiff₁⟩ := run_foldl_perform h
    obtain ⟨r, hr, hkey, htransform, hiff⟩ := perform_run hr₁
    refine ⟨r, hr, hkey₁.trans hkey, htransform₁.trans htransform, ?_⟩
    rw [hiff₁, hiff, or_assoc, List.mem_cons, eq_comm (a := a)]

/-! ## The books -/

/-- What is done on a desk, each deed with the desk that it is done on. -/
def flight (caching : Bool) (d : Desk) : List (Desk × Deed) := trace perform d (d.deeds caching)

/-- The applications of transforms on a desk, in order. -/
def applications (caching : Bool) (d : Desk) : List Application :=
  (d.flight caching).filterMap fun s => s.1.applied? s.2

/-- The receipts that are made on a desk, in order. -/
def receipts (caching : Bool) (d : Desk) : List Receipt :=
  (d.flight caching).filterMap fun s => s.1.receipt? s.2

/-- A desk on which nothing has been applied yet. -/
def IsFresh (d : Desk) : Prop := ∀ r ∈ d.runs, r.outcome = none

/-- **On a fresh desk, every deed is due when it is done.** -/
theorem isDue_of_mem_flight (hd : d.IsFresh) {s : Desk × Deed} (hs : s ∈ d.flight caching) :
    s.1.IsDue s.2 := by
  obtain ⟨d', a⟩ := s
  obtain ⟨before, after, hdeeds, rfl⟩ := mem_trace hs
  dsimp only at hdeeds ⊢
  have hlt : a.run < (before.foldl perform d).runs.length := by
    have hkeys := congrArg List.length (foldl_perform_keys before d)
    rw [List.length_map, List.length_map] at hkeys
    have hmem : a ∈ d.deeds caching := by simp [hdeeds]
    exact hkeys ▸ run_lt_of_mem_deeds hmem
  have hr' := List.getElem?_eq_getElem hlt
  obtain ⟨r, hr, -, -, hiff⟩ := run_foldl_perform hr'
  rw [hd r (List.mem_of_getElem? hr), Option.isSome_none, Bool.false_eq_true, false_or] at hiff
  refine ⟨_, hr', ?_⟩
  rw [← Option.not_isSome_iff_eq_none, hiff]
  refine ⟨fun hnot => Decidable.byContradiction fun hne => hnot (compute_before hdeeds hne),
    fun heq => ?_⟩
  rw [heq] at hdeeds
  exact not_compute_before hdeeds

/-- **At the end every run has an outcome.** -/
theorem outcome_finish (caching : Bool) (d : Desk) :
    ∀ r ∈ (d.finish caching).runs, ∃ o, r.outcome = some o := by
  intro r' hr'
  obtain ⟨j, hlt, hget⟩ := List.mem_iff_getElem.mp hr'
  have hj := List.getElem?_eq_some_iff.mpr ⟨hlt, hget⟩
  rw [finish_eq_deeds] at hj
  obtain ⟨r, hr, -, -, hiff⟩ := run_foldl_perform hj
  have hmem : .compute j ∈ d.deeds caching := by
    have hfilter := filter_deeds caching hr
    rw [Deed.ofRun] at hfilter
    exact (List.mem_filter.mp (hfilter ▸ List.mem_cons_self ..)).1
  exact Option.isSome_iff_exists.mp (hiff.mpr (.inr hmem))

theorem keys_of_mem_flight {s : Desk × Deed} (hs : s ∈ d.flight caching) :
    s.1.runs.map Run.key = d.runs.map Run.key :=
  (invariant (f := perform) (l := d.deeds caching)
    (P := fun d' => d'.runs.map Run.key = d.runs.map Run.key) rfl
    fun s _ h => (perform_keys s.1 s.2).trans h).1 s hs

/-- What is noted of all deeds is what is noted of each run. -/
theorem perm_filterMap_deeds {β : Type} {note? : Deed → Option β} {ofRun : Run → List β}
    (h : ∀ j r, d.runs[j]? = some r → (Deed.ofRun caching j r.copies).filterMap note? = ofRun r) :
    ((d.deeds caching).filterMap note?).Perm (d.runs.flatMap ofRun) := by
  have hrun : ∀ s ∈ d.runs.zipIdx,
      (Deed.ofRun caching s.2 s.1.copies).filterMap note? = ofRun s.1 := fun s hs =>
    h s.2 s.1 (List.mem_zipIdx_iff_getElem?.mp hs)
  refine ((deeds_perm caching d).filterMap note?).trans (List.Perm.of_eq ?_)
  rw [List.filterMap_flatMap, List.flatMap_def, List.map_congr_left hrun, ← List.flatMap_def]
  conv => rhs; rw [← List.zipIdx_map_fst 0 d.runs, List.flatMap_map]

/-- **Each key is applied once.** -/
theorem keys_applications (caching : Bool) (d : Desk) :
    ((d.applications caching).map Application.key).Perm (d.runs.map Run.key) := by
  have hnoted : (d.applications caching).map Application.key =
      (d.deeds caching).filterMap (Deed.applies? (d.runs.map Run.key)) := by
    rw [applications, List.map_filterMap]
    refine filterMap_trace (g := fun d a => (d.applied? a).map Application.key) fun s hs => ?_
    have hkeys := keys_of_mem_flight hs
    obtain ⟨d', a⟩ := s
    cases a with
    | compute j =>
      dsimp only [applied?, Deed.applies?]
      rw [← hkeys, Option.map_map, List.getElem?_map]
      rfl
    | _ => rfl
  have heach : d.runs.map Run.key = d.runs.flatMap fun r => [r.key] := List.map_eq_flatMap ..
  rw [hnoted]
  refine (perm_filterMap_deeds fun j r hr => ?_).trans (.of_eq heach.symm)
  have hkey : (d.runs.map Run.key)[j]? = some r.key := by rw [List.getElem?_map, hr]; rfl
  cases caching <;> simp [Deed.ofRun, Deed.ofDelivery, List.filterMap_cons, Deed.applies?, hkey]

/-- **Each copy that waits for a run receives its outcome.** -/
theorem waiting_receipts (hd : d.IsFresh) (caching : Bool) :
    ((d.receipts caching).map fun r => (r.copy, r.key)).Perm
      (d.runs.flatMap fun r => r.copies.map fun i => (i, r.key)) := by
  have hnoted : (d.receipts caching).map (fun r => (r.copy, r.key)) =
      (d.deeds caching).filterMap (Deed.hands? (d.runs.map Run.key)) := by
    rw [receipts, List.map_filterMap]
    refine filterMap_trace (g := fun d a => (d.receipt? a).map fun r => (r.copy, r.key))
      fun s hs => ?_
    have hdue := isDue_of_mem_flight hd hs
    have hkeys := keys_of_mem_flight hs
    obtain ⟨d', a⟩ := s
    rcases perform_cases hdue with ⟨j, -, -, -, ha, -⟩ | ⟨j, -, -, ha, -⟩ |
      ⟨j, i, r, o, ha, hr, -, hreceipt, -⟩
    · obtain rfl : a = .compute j := ha
      rfl
    · obtain rfl : a = .keep j := ha
      rfl
    · obtain rfl : a = .hand j i := ha
      dsimp only at hreceipt hr hkeys ⊢
      rw [hreceipt, Deed.hands?, ← hkeys, List.getElem?_map, hr]
      rfl
  rw [hnoted]
  refine perm_filterMap_deeds fun j r hr => ?_
  have hkey : (d.runs.map Run.key)[j]? = some r.key := by rw [List.getElem?_map, hr]; rfl
  cases caching <;> simp [Deed.ofRun, Deed.ofDelivery, List.filterMap_cons, List.filterMap_map,
    Deed.hands?, hkey, Function.comp_def]

/-- Runs whose outcomes are all what known applications under their keys came to. -/
def Accounted (known : Application → Prop) (d : Desk) : Prop :=
  ∀ r ∈ d.runs, ∀ o, r.outcome = some o →
    ∃ a, known a ∧ a.key = r.key ∧ a.transform = r.transform ∧ a.CameTo o

/-- Kept results that are all what known applications under their keys came to. -/
def KeptFrom (known : Application → Prop) (d : Desk) : Prop :=
  ∀ e ∈ d.cache, ∃ a, known a ∧ a.key = e.1 ∧ a.CameTo (.ok e.2)

variable {known : Application → Prop}

theorem Accounted.later {d' : Desk} (h : d.Accounted known) (hlater : d.IsLater d') :
    d'.Accounted known := by
  obtain ⟨⟨f, hf, hruns, -⟩, -⟩ := hlater
  rw [Accounted, hruns]
  intro r' hr' o' ho'
  obtain ⟨r, hr, rfl⟩ := List.mem_map.mp hr'
  obtain ⟨o, ho, rfl⟩ := Option.map_eq_some_iff.mp ho'
  obtain ⟨a, ha, hkey, htransform, hcame⟩ := h r hr o ho
  exact ⟨a, ha, hkey, htransform, hcame.map hf⟩

theorem KeptFrom.later {d' : Desk} (h : d.KeptFrom known) (hlater : d.IsLater d') :
    d'.KeptFrom known := by
  obtain ⟨⟨f, hf, -, hcache⟩, -⟩ := hlater
  rw [KeptFrom, hcache]
  intro e' he'
  obtain ⟨e, he, rfl⟩ := List.mem_map.mp he'
  obtain ⟨a, ha, hkey, hcame⟩ := h e he
  exact ⟨a, ha, hkey, hcame.map hf⟩

/-- **A deed that is due leaves outcomes accounted for**, when it is known. -/
theorem Accounted.perform (h : d.Accounted known) (hdue : d.IsDue a)
    (hknown : ∀ app, d.applied? a = some app → known app) : (d.perform a).Accounted known := by
  rcases perform_cases hdue with ⟨j, r, o, _, -, hr, -, happ, hcame, heq⟩ | ⟨j, r, o, -, -, -, heq⟩ |
    ⟨j, i, r, o, -, -, -, -, heq⟩ <;> rw [heq]
  · intro r' hr' o' ho'
    rcases List.mem_or_eq_of_mem_set hr' with hr' | rfl
    · exact h r' hr' o' ho'
    · obtain rfl := Option.some.inj ho'
      exact ⟨_, hknown _ happ, rfl, rfl, hcame⟩
  · exact h
  · exact h.later (isLater_receive ..)

/-- A deed that is due keeps only what is accounted for. -/
theorem KeptFrom.perform (h : d.KeptFrom known) (haccounted : d.Accounted known) (hdue : d.IsDue a) :
    (d.perform a).KeptFrom known := by
  rcases perform_cases hdue with ⟨j, r, o, _, -, -, -, -, -, heq⟩ | ⟨j, r, o, -, hr, ho, heq⟩ |
    ⟨j, i, r, o, -, -, -, -, heq⟩ <;> rw [heq]
  · exact h
  · cases o with
    | error f => exact h
    | ok v =>
      intro e he
      obtain ⟨app, happ, hkey, -, hcame⟩ := haccounted r (List.mem_of_getElem? hr) _ ho
      rcases Entries.eq_or_mem_of_mem_put he with rfl | he
      · exact ⟨app, happ, hkey, hcame⟩
      · exact h e he
  · exact h.later (isLater_receive ..)

/-- **On a fresh desk, every outcome is what an application came to.** -/
theorem accounted_flight (hd : d.IsFresh) (caching : Bool) :
    (∀ s ∈ d.flight caching, s.1.Accounted (· ∈ d.applications caching)) ∧
      (d.finish caching).Accounted (· ∈ d.applications caching) := by
  rw [finish_eq_deeds]
  refine invariant (fun r hr o ho => ?_) fun s hs hs' => ?_
  · cases (hd r hr).symm.trans ho
  · exact hs'.perform (isDue_of_mem_flight hd hs) fun app happ =>
      List.mem_filterMap.mpr ⟨s, hs, happ⟩

/-- **What a fresh desk keeps is what it kept before, or what an application came to.** -/
theorem keptFrom_finish (hd : d.IsFresh) (h : d.KeptFrom known) (caching : Bool) :
    (d.finish caching).KeptFrom fun a => known a ∨ a ∈ d.applications caching := by
  have haccounted := (accounted_flight hd caching).1
  rw [finish_eq_deeds]
  refine (invariant (P := KeptFrom _) (fun e he => ?_) fun s hs hs' => ?_).2
  · obtain ⟨a, ha, hrest⟩ := h e he
    exact ⟨a, .inl ha, hrest⟩
  · refine hs'.perform (fun r hr o ho => ?_) (isDue_of_mem_flight hd hs)
    obtain ⟨a, ha, hrest⟩ := haccounted s hs r hr o ho
    exact ⟨a, .inr ha, hrest⟩

/-- **No run that fails leaves a result**: where nothing is kept under the keys of runs, only runs with a
result are kept. -/
theorem unkept_finish (hd : d.IsFresh) (hnodup : (d.runs.map Run.key).Nodup)
    (h : ∀ r ∈ d.runs, Entries.find? r.key d.cache = none) :
    ∀ r ∈ (d.finish caching).runs, ∀ f, r.outcome = some (.error f) →
      Entries.find? r.key (d.finish caching).cache = none := by
  let P (d' : Desk) : Prop := d'.runs.map Run.key = d.runs.map Run.key ∧
    ∀ r ∈ d'.runs, (∀ v, r.outcome ≠ some (.ok v)) → Entries.find? r.key d'.cache = none
  have hall : P (d.finish caching) := by
    rw [finish_eq_deeds]
    refine (invariant (P := P) ⟨rfl, fun r hr _ => h r hr⟩ fun s hs hP => ?_).2
    obtain ⟨hkeys, hP⟩ := hP
    refine ⟨(perform_keys s.1 s.2).trans hkeys, ?_⟩
    rcases perform_cases (isDue_of_mem_flight hd hs) with ⟨j, r, o, _, -, hr, ho, -, -, heq⟩ |
      ⟨j, r, o, -, hr, ho, heq⟩ | ⟨j, i, r, o, -, -, -, -, heq⟩
    · rw [heq]
      intro r' hr' hnot
      rcases List.mem_or_eq_of_mem_set hr' with hr' | rfl
      · exact hP r' hr' hnot
      · exact hP r (List.mem_of_getElem? hr) fun v hv => by cases ho.symm.trans hv
    · rw [heq]
      intro r' hr' hnot
      cases o with
      | error f => exact hP r' hr' hnot
      | ok v =>
        -- A run of the key that is put is that run, which has a result.
        have hne : r'.key ≠ r.key := fun hkey => by
          obtain rfl := List.inj_on_of_nodup_map (hkeys ▸ hnodup) hr' (List.mem_of_getElem? hr) hkey
          exact hnot v ho
        exact (Entries.find?_put_other hne ..).trans (hP r' hr' hnot)
    · obtain ⟨⟨f, -, hruns, hcache⟩, -⟩ := isLater_receive s.1 ⟨i, r.key, o⟩
      rw [heq, hruns, hcache]
      intro r' hr' hnot
      obtain ⟨r₁, hr₁, rfl⟩ := List.mem_map.mp hr'
      refine (Entries.find?_map f r₁.key s.1.cache).trans ?_
      rw [hP r₁ hr₁ fun v hv => hnot (f v) (by rw [Run.through, hv]; rfl), Option.map_none]
  exact fun r hr f hf => hall.2 r hr fun v hv => by cases hf.symm.trans hv

end Desk

end Verdict
