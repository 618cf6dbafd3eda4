import Verdict.Proofs.Mutation.LookUp
import Verdict.Proofs.Mutation.Placement

/-!
# Proofs/Mutation/SingleFlight — one run for all that ask

    opened ──look up──▸ looked ──apply, keep, hand──▸ landed

Whatever transforms there are, however often they pause and whether they fail: in one call, a key has its
transform applied at most once, a key whose result is kept not at all, and every field that waits for a
key receives what its one application came to (`Mutator.singleFlight`).
-/

namespace Verdict

namespace Desk

variable {d : Desk} {a : Deed} {call : Nat}

theorem calls_perform (d : Desk) (a : Deed) :
    (d.perform a).copies.map WorkingCopy.call = d.copies.map WorkingCopy.call := by
  cases a with
  | compute j =>
    cases hr : d.runs[j]? with
    | none => rw [perform, compute, hr]
    | some r => rw [perform, compute_eq hr]
  | keep j =>
    rw [perform, keep]
    split <;> rfl
  | hand j i => exact (isLater_hand d j i).calls

/-- The keys of the runs that have not come to an outcome. -/
def inFlight (d : Desk) : List CacheKey := (d.runs.filter fun r => r.outcome.isNone).map Run.key

/-- Where no results are to be kept, none is kept. -/
theorem keys_finish_uncached (d : Desk) :
    (d.finish false).cache.map Prod.fst = d.cache.map Prod.fst := by
  rw [finish_eq_deeds]
  refine (invariant (P := fun d' => d'.cache.map Prod.fst = d.cache.map Prod.fst) rfl
    fun s hs hP => ?_).2
  obtain ⟨d', a⟩ := s
  obtain ⟨before, after, hdeeds, -⟩ := mem_trace hs
  have hmem := (deeds_perm false d).subset (a := a) (by simp [hdeeds])
  obtain ⟨⟨r, j⟩, -, ha⟩ := List.mem_flatMap.mp hmem
  change a ∈ .compute j :: ([] ++ r.copies.map (Deed.hand j)) at ha
  rcases List.mem_cons.mp ha with rfl | ha
  · refine Eq.trans (congrArg _ ?_) hP
    cases hr : d'.runs[j]? with
    | none => rw [perform, compute, hr]
    | some r => rw [perform, compute_eq hr]
  · obtain ⟨i, -, rfl⟩ := List.mem_map.mp ha
    obtain ⟨⟨f, -, -, hcache⟩, -⟩ := isLater_hand d' j i
    dsimp only [perform]
    rw [hcache, List.map_map]
    exact hP

/-- A call that failed stays failed. -/
theorem isSome_find?_withFault {faults : List (Nat × Fault)} (e : Nat × Fault)
    (h : (Entries.find? call faults).isSome) :
    (Entries.find? call (withFault faults e)).isSome := by
  have hfind := find?_foldl_withFault call [e] faults
  rw [List.foldl_cons, List.foldl_nil] at hfind
  rw [hfind, Option.isSome_or, h, Bool.true_or]

theorem isSome_fault_receive (h : (Entries.find? call d.faults).isSome) (r : Receipt) :
    (Entries.find? call (d.receive r).faults).isSome := by
  rw [receive]
  split
  · rwa [(isLater_put ..).2]
  · cases d.copies[r.copy]? with
    | none => exact h
    | some c =>
      rw [Option.map_some, Option.getD_some, fail_eq]
      exact isSome_find?_withFault _ h

theorem isSome_fault_perform (h : (Entries.find? call d.faults).isSome) (a : Deed) :
    (Entries.find? call (d.perform a).faults).isSome := by
  cases a with
  | compute j =>
    cases hr : d.runs[j]? with
    | none => rwa [perform, compute, hr]
    | some r => rwa [perform, compute_eq hr]
  | keep j =>
    rw [perform, keep]
    split <;> exact h
  | hand j i =>
    rw [perform]
    rcases d.hand_cases j i with heq | ⟨r, heq⟩ <;> rw [heq]
    · exact h
    · exact isSome_fault_receive h r

/-- A call whose copy receives a fault has failed. -/
theorem isSome_fault_of_receive {r : Receipt} {f : Fault} {c : WorkingCopy}
    (hc : d.copies[r.copy]? = some c) (hf : r.outcome = .error f) :
    (Entries.find? c.call (d.receive r).faults).isSome := by
  have hfind := find?_foldl_withFault c.call [(c.call, f)] d.faults
  rw [List.foldl_cons, List.foldl_nil] at hfind
  rw [receive, hf]
  dsimp only
  rw [hc, Option.map_some, Option.getD_some, fail_eq, hfind, Entries.find?_cons, if_pos rfl,
    Option.isSome_or, Option.isSome_some, Bool.or_true]

/-- **Each receipt is of what the application of its key came to**, and is received as such. -/
theorem exists_of_mem_receipts {caching : Bool} (hd : d.IsFresh) {r : Receipt}
    (hr : r ∈ d.receipts caching) :
    (∃ a ∈ d.applications caching, a.key = r.key ∧ a.CameTo r.outcome) ∧
      ∃ s ∈ d.flight caching, s.1.receipt? s.2 = some r ∧ s.1.perform s.2 = s.1.receive r := by
  obtain ⟨s, hs, hreceipt⟩ := List.mem_filterMap.mp hr
  rcases perform_cases (isDue_of_mem_flight hd hs) with ⟨j, _, _, _, ha, -⟩ | ⟨j, _, _, ha, -⟩ |
    ⟨j, i, run, o, -, hrun, ho, hreceipt', hperform⟩
  · rw [ha] at hreceipt
    cases hreceipt
  · rw [ha] at hreceipt
    cases hreceipt
  · obtain rfl := Option.some.inj (hreceipt'.symm.trans hreceipt)
    obtain ⟨a, ha, hkey, -, hcame⟩ :=
      (accounted_flight hd caching).1 s hs run (List.mem_of_getElem? hrun) o ho
    exact ⟨⟨a, ha, hkey, hcame⟩, s, hs, hreceipt, hperform⟩

/-- **A fault that a copy receives makes its call fail.** -/
theorem isSome_fault_finish {caching : Bool} (hcalls : ∀ c ∈ d.copies, c.call = call)
    {r : Receipt} (hcopy : r.copy < d.copies.length) {s : Desk × Deed} (hs : s ∈ d.flight caching)
    (hreceived : s.1.perform s.2 = s.1.receive r) {f : Fault} (hf : r.outcome = .error f) :
    (Entries.find? call (d.finish caching).faults).isSome := by
  obtain ⟨d', deed⟩ := s
  obtain ⟨before, after, hdeeds, rfl⟩ := mem_trace hs
  dsimp only at hdeeds hreceived
  have hbefore : (before.foldl perform d).copies.map WorkingCopy.call =
      d.copies.map WorkingCopy.call :=
    (invariant (P := fun d' => d'.copies.map WorkingCopy.call = d.copies.map WorkingCopy.call) rfl
      fun s _ hs => (calls_perform s.1 s.2).trans hs).2
  have hlt : r.copy < (before.foldl perform d).copies.length := by
    have hlength := congrArg List.length hbefore
    rw [List.length_map, List.length_map] at hlength
    rwa [hlength]
  have hcall : (before.foldl perform d).copies[r.copy].call = call := by
    have hmem := List.mem_map_of_mem (f := WorkingCopy.call) (List.getElem_mem hlt)
    rw [hbefore] at hmem
    obtain ⟨c, hc, heq⟩ := List.mem_map.mp hmem
    exact heq.symm.trans (hcalls c hc)
  have hfailed := isSome_fault_of_receive (List.getElem?_eq_getElem hlt) hf
  rw [hcall, ← hreceived] at hfailed
  rw [finish_eq_deeds, hdeeds, List.foldl_append, List.foldl_cons]
  exact (invariant (P := fun d' => (Entries.find? call d'.faults).isSome) hfailed
    fun s _ hs => isSome_fault_perform hs s.2).2

end Desk

/-- The criteria of a call. -/
def Value.criteria : Value → List Value
  | .list _ items => items
  | v => [v]

theorem WorkingCopy.call_of_mem_ofEach {call : Nat} {cs : List Value} {copy : WorkingCopy} :
    ∀ {next : Nat}, copy ∈ (ofEach call next cs).1 → copy.call = call := by
  induction cs with
  | nil => exact fun h => by cases h
  | cons c rest ih =>
    intro next h
    rcases List.mem_cons.mp h with rfl | h
    · rfl
    · exact ih h

namespace Mutator

/-- The desk of a call whose criteria have been placed. -/
def opened (m : Mutator) (criteria : Value) : Desk :=
  (m.placeCalls 0 ⟨[], [], m.cache, m.nextMark, []⟩ [criteria]).1

/-- The desk of a call whose fields have been looked up. -/
def looked (m : Mutator) (criteria : Value) : Desk := (m.opened criteria).lookUpAll m.transforms

/-- The desk of a call whose runs have come to their end. -/
def landed (m : Mutator) (criteria : Value) : Desk := (m.looked criteria).finish m.caching

/-- The look-ups of a call, each with the desk that it is done on. -/
def search (m : Mutator) (criteria : Value) : List (Desk × Desk.LookUp) :=
  (m.opened criteria).search m.transforms

/-- The deeds of a call, each with the desk that it is done on. -/
def flight (m : Mutator) (criteria : Value) : List (Desk × Deed) :=
  (m.looked criteria).flight m.caching

/-- The applications of transforms in a call. -/
def applications (m : Mutator) (criteria : Value) : List Application :=
  (m.looked criteria).applications m.caching

/-- The receipts of a call. -/
def receipts (m : Mutator) (criteria : Value) : List Receipt := (m.looked criteria).receipts m.caching

/-- **In one call, all that ask for a key share one run.** -/
structure SingleFlight (m : Mutator) (criteria : Value) : Prop where
  /-- A key has its transform applied at most once. -/
  once : ((m.applications criteria).map Application.key).Nodup
  /-- What is applied is what the call says it has started. -/
  starts : ((m.applications criteria).map fun a => a.key.1).Perm
    ((m.mutate criteria).2.2.map Start.name)
  /-- What is applied is registered under the name of the key. -/
  registered : ∀ a ∈ m.applications criteria, (a.key.1, a.transform) ∈ m.transforms
  /-- A key whose result is kept when it is looked up has nothing applied. -/
  kept : ∀ s ∈ m.search criteria, ∀ key f, s.1.found s.2 = .ok (some (key, f)) →
    Entries.has key s.1.cache = true → ∀ a ∈ m.applications criteria, a.key ≠ key
  /-- Each field that waits for a key has a receipt. -/
  waiting : ((m.search criteria).filterMap fun s => s.1.waits? s.2).Perm
    ((m.receipts criteria).map fun r => (r.copy, r.key))
  /-- A receipt is of what the application of its key came to: the value is put at the field, or the call
  fails. -/
  received : ∀ r ∈ m.receipts criteria,
    (∃ a ∈ m.applications criteria, a.key = r.key ∧ a.CameTo r.outcome) ∧
    (∃ s ∈ m.flight criteria, s.1.receipt? s.2 = some r ∧ s.1.perform s.2 = s.1.receive r) ∧
    ∀ f, r.outcome = .error f → ∃ f', (m.mutate criteria).1 = .error f'

variable {m : Mutator} {criteria : Value}

theorem opened_eq (m : Mutator) (criteria : Value) :
    m.opened criteria = (m.placeItems 0 ⟨[], [], m.cache, m.nextMark, []⟩ criteria.criteria).1 := by
  rw [opened, placeCalls, placeCall.eq_def]
  cases criteria <;> rfl

theorem opened_spec (m : Mutator) (criteria : Value) :
    (m.opened criteria).runs = [] ∧ (m.opened criteria).cache = m.cache ∧
      ∀ copy ∈ (m.opened criteria).copies, copy.call = 0 := by
  rw [opened_eq, placeItems_fst]
  exact ⟨rfl, rfl, fun _ hcopy => WorkingCopy.call_of_mem_ofEach hcopy⟩

theorem outcome_of_fault {d : Desk} {n : Nat} {f : Fault} (h : Entries.find? n d.faults = some f)
    (call : MutationCall) : outcome d n call = .error f := by
  rw [outcome, h]

/-- A call fails when its desk says so. -/
theorem mutate_of_fault (h : (Entries.find? 0 (m.landed criteria).faults).isSome) :
    ∃ f, (m.mutate criteria).1 = .error f := by
  obtain ⟨f, hf⟩ := Option.isSome_iff_exists.mp h
  exact ⟨f, (mutate_of_placeCall rfl).trans (outcome_of_fault hf _)⟩

theorem started_looked (m : Mutator) (criteria : Value) :
    (m.looked criteria).Started m.transforms (m.cache.map Prod.fst) := by
  obtain ⟨hruns, hcache, -⟩ := m.opened_spec criteria
  have hstarted := (Desk.started_lookUpAll hruns m.transforms).2
  rwa [hcache] at hstarted

theorem calls_looked (m : Mutator) (criteria : Value) :
    ∀ c ∈ (m.looked criteria).copies, c.call = 0 :=
  Desk.forall_call_of_calls (Desk.calls_lookUpAll ..) (m.opened_spec criteria).2.2

/-- **A call keeps what was kept before, or what its applications came to.** -/
theorem keptFrom_landed {known : Application → Prop} (m : Mutator)
    (h : ∀ e ∈ m.cache, ∃ a, known a ∧ a.key = e.1 ∧ a.CameTo (.ok e.2)) (criteria : Value) :
    (m.landed criteria).KeptFrom fun a => known a ∨ a ∈ m.applications criteria := by
  have hopened : (m.opened criteria).KeptFrom known := by
    rw [Desk.KeptFrom, (m.opened_spec criteria).2.1]
    exact h
  exact Desk.keptFrom_finish (m.started_looked criteria).fresh
    (Desk.keptFrom_lookUpAll hopened m.transforms) m.caching

theorem keys_applications (m : Mutator) (criteria : Value) :
    ((m.applications criteria).map Application.key).Perm ((m.looked criteria).runs.map Run.key) :=
  Desk.keys_applications ..

/-- **An application is of a run**: of its key, with its transform. -/
theorem exists_of_mem_applications {a : Application} (h : a ∈ m.applications criteria) :
    ∃ r ∈ (m.looked criteria).runs, r.key = a.key ∧ r.transform = a.transform := by
  obtain ⟨⟨d, deed⟩, hs, happlied⟩ := List.mem_filterMap.mp h
  obtain ⟨before, -, -, rfl⟩ := Desk.mem_trace hs
  cases deed with
  | compute j =>
    obtain ⟨r', hr', rfl⟩ := Option.map_eq_some_iff.mp happlied
    obtain ⟨r, hr, hkey, htransform, -⟩ := Desk.run_foldl_perform hr'
    exact ⟨r, List.mem_of_getElem? hr, hkey.symm, htransform.symm⟩
  | keep j => cases happlied
  | hand j i => cases happlied

/-- **Single flight.** -/
theorem singleFlight (m : Mutator) (criteria : Value) : m.SingleFlight criteria := by
  have hstarted := m.started_looked criteria
  have hkeys := m.keys_applications criteria
  obtain ⟨hruns, hcache, hcalls⟩ := m.opened_spec criteria
  constructor
  case once => exact hkeys.nodup_iff.mpr hstarted.keys
  case starts =>
    have hnames := hkeys.map Prod.fst
    rw [List.map_map, List.map_map] at hnames
    have hstarts : (m.mutate criteria).2.2 = (m.looked criteria).runs.map fun r => ⟨r.name, r.input⟩ :=
      rfl
    rw [hstarts, List.map_map]
    exact hnames
  case registered =>
    intro a ha
    obtain ⟨r, hr, hkey, htransform⟩ := exists_of_mem_applications ha
    rw [← hkey, ← htransform]
    exact hstarted.registered r hr
  case kept =>
    intro s hs key f _ hhas a ha heq
    obtain ⟨r, hr, hkey, -⟩ := exists_of_mem_applications ha
    have hmem : key ∉ s.1.cache.map Prod.fst := by
      rw [((Desk.started_lookUpAll hruns m.transforms).1 s hs).cache, hcache, ← heq, ← hkey]
      exact hstarted.unkept r hr
    rw [Entries.has, Entries.find?_eq_none_iff.mpr hmem] at hhas
    cases hhas
  case waiting =>
    exact (Desk.waits_lookUpAll hruns m.transforms).symm.trans
      (Desk.waiting_receipts hstarted.fresh m.caching).symm
  case received =>
    intro r hr
    obtain ⟨happlied, s, hs, hreceipt, hreceived⟩ := Desk.exists_of_mem_receipts hstarted.fresh hr
    refine ⟨happlied, ⟨s, hs, hreceipt, hreceived⟩, fun f hf => mutate_of_fault ?_⟩
    have hwaits : (r.copy, r.key) ∈ Run.waits (m.looked criteria).runs :=
      (Desk.waiting_receipts hstarted.fresh m.caching).subset (List.mem_map_of_mem hr)
    obtain ⟨run, hrun, hcopy⟩ := List.mem_flatMap.mp hwaits
    obtain ⟨i, hi, heq⟩ := List.mem_map.mp hcopy
    obtain rfl := congrArg Prod.fst heq
    exact Desk.isSome_fault_finish (m.calls_looked criteria) (hstarted.waiting run hrun _ hi) hs hreceived hf

/-! ## After a call -/

/-- **After a call, nothing is in flight.** -/
theorem inFlight_landed (m : Mutator) (criteria : Value) : (m.landed criteria).inFlight = [] := by
  rw [Desk.inFlight, List.map_eq_nil_iff, List.filter_eq_nil_iff]
  intro r hr hnone
  obtain ⟨o, ho⟩ := Desk.outcome_finish m.caching (m.looked criteria) r hr
  rw [ho] at hnone
  cases hnone

/-- **A transform that fails leaves no result** under its key. -/
theorem not_mem_cache_of_error {a : Application} (ha : a ∈ m.applications criteria) {f : Fault}
    (hf : a.answer = .error f) : a.key ∉ (m.landed criteria).cache.map Prod.fst := by
  have hstarted := m.started_looked criteria
  have hnodup : ((m.applications criteria).map Application.key).Nodup :=
    (m.singleFlight criteria).once
  have hkeys : (m.landed criteria).runs.map Run.key = (m.looked criteria).runs.map Run.key := by
    rw [landed, Desk.finish_eq_deeds, Desk.foldl_perform_keys]
  have hmem : a.key ∈ (m.landed criteria).runs.map Run.key :=
    hkeys ▸ (m.keys_applications criteria).subset (List.mem_map_of_mem ha)
  obtain ⟨r, hr, hkey⟩ := List.mem_map.mp hmem
  obtain ⟨o, ho⟩ := Desk.outcome_finish m.caching (m.looked criteria) r hr
  obtain ⟨a', ha', hkey', -, hcame⟩ :=
    (Desk.accounted_flight hstarted.fresh m.caching).2 r hr o ho
  -- The outcome of the run is that of the only application under its key.
  obtain rfl := List.inj_on_of_nodup_map hnodup ha' ha (hkey'.trans hkey)
  have hunkept : ∀ r ∈ (m.looked criteria).runs,
      Entries.find? r.key (m.looked criteria).cache = none := fun r hr =>
    Entries.find?_eq_none_iff.mpr (hstarted.cache ▸ hstarted.unkept r hr)
  rw [hkey', ← Entries.find?_eq_none_iff]
  exact Desk.unkept_finish hstarted.fresh hstarted.keys hunkept r hr f (hcame.eq_error hf ▸ ho)

theorem cache_landed_uncached (hcaching : m.caching = false) (hcache : m.cache = [])
    (criteria : Value) : (m.landed criteria).cache = [] := by
  have hlooked := (m.started_looked criteria).cache
  rw [hcache, List.map_nil] at hlooked
  rw [landed, hcaching, ← List.map_eq_nil_iff, Desk.keys_finish_uncached, hlooked]

end Mutator

end Verdict
