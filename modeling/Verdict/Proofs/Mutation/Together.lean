import Verdict.Proofs.Mutation.Alike
import Verdict.Proofs.Mutation.Tidy

/-!
# Proofs/Mutation/Together — several calls for the same criteria

    criteria, criteria, … ──run──▸ v, v, …
    criteria ────────────mutate──▸ v

Calls for the same criteria that are run together share all runs of transforms.  Where a call is tidy that
does not show: each of them comes to what one call comes to (`Mutator.run_replicate`).
-/

namespace Verdict

namespace Desk

variable {d : Desk} {call : Nat}

/-- A call without a fault after its look-ups has had none before. -/
theorem find?_fault_of_lookUpAll {ts : List (String × Transform)}
    (h : Entries.find? call (d.lookUpAll ts).faults = none) : Entries.find? call d.faults = none := by
  refine Option.eq_none_iff_forall_ne_some.mpr fun f hf => ?_
  suffices hlast : (Entries.find? call (d.lookUpAll ts).faults).isSome by
    rw [h] at hlast
    cases hlast
  rw [lookUpAll_eq_foldl]
  refine (invariant (P := fun d' => (Entries.find? call d'.faults).isSome)
    (Option.isSome_of_eq_some hf) fun s _ hs => ?_).2
  rcases ask_cases s.1 s.2 with ⟨-, faults, heq, hcase⟩ | ⟨-, -, -, kept, -, -, heq⟩ |
    ⟨key, f, -, -, -, heq⟩ <;> rw [heq]
  · rcases hcase with ⟨-, rfl⟩ | ⟨c, f, -, -, rfl⟩
    · exact hs
    · exact isSome_find?_withFault _ hs
  · rwa [(isLater_put ..).2]
  · exact hs

end Desk

namespace Mutator

variable {m : Mutator} {criteria : Value} {calls : Nat}

/-- What a call comes to is what its desk holds at the end. -/
theorem mutate_eq_outcome (m : Mutator) (criteria : Value) : (m.mutate criteria).1 =
    outcome (m.landed criteria) 0 ⟨isList criteria, m.slots 0 criteria.criteria⟩ := by
  rw [mutate_of_placeCall (placeCall_eq ..), landed, looked, opened_eq]
  rfl

/-- **A call that comes to something has no fault** at any time. -/
theorem find?_fault_of_ok {a : Mutated} (h : (m.mutate criteria).1 = .ok a) :
    Entries.find? 0 (m.landed criteria).faults = none ∧
      Entries.find? 0 (m.looked criteria).faults = none ∧
      ∀ c ∈ criteria.criteria, m.placeFault? c = none := by
  have hlanded : Entries.find? 0 (m.landed criteria).faults = none := by
    cases hfault : Entries.find? 0 (m.landed criteria).faults with
    | none => rfl
    | some f =>
      rw [mutate_eq_outcome, outcome_of_fault hfault] at h
      cases h
  have hlooked : Entries.find? 0 (m.looked criteria).faults = none :=
    Desk.find?_fault_of_steps _ hlanded
  have hopened : Entries.find? 0 (m.opened criteria).faults = none :=
    Desk.find?_fault_of_lookUpAll hlooked
  refine ⟨hlanded, hlooked, fun c hc => ?_⟩
  rw [opened_eq, placeItems_fst, Desk.find?_foldl_withFault, Option.or_eq_none_iff] at hopened
  cases hfault : m.placeFault? c with
  | none => rfl
  | some f =>
    have hmem : (0, f) ∈ criteria.criteria.filterMap fun c => (m.placeFault? c).map (Prod.mk 0) :=
      List.mem_filterMap.mpr ⟨c, hc, by rw [hfault, Option.map_some]⟩
    exact absurd (List.mem_map_of_mem (f := Prod.fst) hmem) (Entries.find?_eq_none_iff.mp hopened.2)

/-! ## The desk of several calls -/

/-- The desk of calls for the same criteria that have been placed. -/
def openedTogether (m : Mutator) (criteria : Value) (calls : Nat) : Desk :=
  (m.placeCalls 0 ⟨[], [], m.cache, m.nextMark, []⟩ (List.replicate calls criteria)).1

theorem copiesIn_zero (m : Mutator) (criteria : Value) :
    m.copiesIn criteria 0 = m.copiesOf criteria := by
  rw [copiesIn]
  refine (List.map_congr_left fun c hc => ?_).trans (List.map_id' _)
  obtain ⟨call, v⟩ := c
  obtain rfl : call = 0 := WorkingCopy.call_of_mem_ofEach hc
  rw [Nat.zero_mul]
  exact congrArg (WorkingCopy.mk 0) (Value.rename_id v)

/-- **The copies of further calls are beside those of the first one.** -/
theorem placeCalls_beside (h : ∀ c ∈ criteria.criteria, m.placeFault? c = none) (calls : Nat) :
    m.placeCalls 0 ⟨[], [], m.cache, m.nextMark, []⟩ (List.replicate (calls + 1) criteria) =
      (Desk.beside ⟨m.copiesOf criteria, [], m.cache,
          m.nextMark + (calls + 1) * m.width criteria, []⟩ (m.copiesBeside criteria calls) fun _ => [],
        (List.range' 0 (calls + 1)).map fun call => ⟨isList criteria,
          m.slots (call * (m.copiesOf criteria).length) criteria.criteria⟩) := by
  have hnext : Desk.nextMark ⟨[], [], m.cache, m.nextMark, []⟩ =
      m.nextMark + 0 * m.width criteria := by rw [Nat.zero_mul, Nat.add_zero]
  have hplaced := placeCalls_replicate h (calls + 1) hnext (Nat.zero_mul _).symm
  rw [hplaced, Nat.zero_add]
  refine Prod.ext ((Desk.mk.injEq ..).mpr ⟨?_, rfl, rfl, rfl, rfl⟩) rfl
  rw [List.range'_succ, List.flatMap_cons, copiesIn_zero]
  rfl

/-- The desk of the first call, with the marks after those of all calls free. -/
theorem rename_opened (h : ∀ c ∈ criteria.criteria, m.placeFault? c = none)
    (hbelow : ∀ n ∈ m.keptMarks, n < m.nextMark) (calls : Nat) : ∃ ρ : Nat → Nat,
    Function.Injective ρ ∧ (∀ n ∈ m.keptMarks, ρ n = n) ∧
    (∀ n, m.nextMark + m.width criteria ≤ n → Value.TakesFree ρ n (ρ n)) ∧
    (m.opened criteria).rename ρ =
      ⟨m.copiesOf criteria, [], m.cache, m.nextMark + (calls + 1) * m.width criteria, []⟩ := by
  have hle : m.width criteria ≤ (calls + 1) * m.width criteria :=
    Nat.le_mul_of_pos_left _ (Nat.succ_pos _)
  have hsame : ∀ {n}, n < m.nextMark + m.width criteria → Value.graft id (m.nextMark + m.width criteria)
      (m.nextMark + (calls + 1) * m.width criteria) n = n := fun hn => Value.graft_of_lt hn
  have hrename : ∀ v : Value, (∀ n ∈ v.marks, n < m.nextMark + m.width criteria) →
      v.rename (Value.graft id (m.nextMark + m.width criteria)
        (m.nextMark + (calls + 1) * m.width criteria)) = v := fun v hv =>
    (Value.rename_congr fun n hn => hsame (hv n hn)).trans (Value.rename_id v)
  refine ⟨Value.graft id (m.nextMark + m.width criteria) (m.nextMark + (calls + 1) * m.width criteria),
    Value.graft_injective Function.injective_id fun n hn => Nat.lt_of_lt_of_le hn (by omega),
    fun n hn => hsame (Nat.lt_add_right _ (hbelow n hn)), fun n hn k => ?_, ?_⟩
  · rw [Value.graft, Value.graft, if_neg (by omega), if_neg (by omega)]
    omega
  · rw [opened_of_faultless h]
    refine (Desk.mk.injEq ..).mpr ⟨?_, rfl, ?_, ?_, rfl⟩
    · refine (List.map_congr_left fun c hc => ?_).trans (List.map_id' _)
      obtain ⟨i, hi⟩ := List.getElem?_of_mem hc
      rw [hrename c.value fun n hn => (marks_copiesOf hi hn).2]
    · refine (List.map_congr_left fun e he => ?_).trans (List.map_id' _)
      refine Prod.ext rfl (hrename e.2 fun n hn => ?_)
      exact Nat.lt_add_right _ (hbelow n (List.mem_flatMap.mpr ⟨e, he, hn⟩))
    · rw [Value.graft, if_neg (Nat.lt_irrefl _), Nat.sub_self, Nat.add_zero]

/-- **At the end the copies of further calls mirror those of the first one.** -/
theorem reflects_landed (htransforms : ∀ e ∈ m.transforms, e.2.IgnoresMarks)
    (hbelow : ∀ n ∈ m.keptMarks, n < m.nextMark) (htidy : m.IsTidy criteria) {a : Mutated}
    (halone : (m.mutate criteria).1 = .ok a) (calls : Nat) : ∃ ρ more waiting,
    (((m.openedTogether criteria (calls + 1)).lookUpAll m.transforms).finish m.caching) =
        ((m.landed criteria).rename ρ).beside more waiting ∧
      ((m.landed criteria).rename ρ).Reflects (m.layout criteria calls) m.keptMarks waiting more := by
  obtain ⟨hlanded, hlooked, hfaultless⟩ := find?_fault_of_ok halone
  obtain ⟨ρ, hρ, hkept, hfree, hopened⟩ := rename_opened hfaultless hbelow calls
  have hreflects := m.reflects_opened criteria calls hbelow fun e he n hn =>
    List.mem_flatMap.mpr ⟨e, he, hn⟩
  rw [← hopened] at hreflects
  have hlookUp : ((m.opened criteria).rename ρ).lookUpAll m.transforms = (m.looked criteria).rename ρ :=
    Desk.lookUpAll_rename hρ m.transforms
  -- All look-ups are as those of the call alone, with other marks, …
  obtain ⟨more, waiting, hdesk, hreflects⟩ := hreflects.lookUpAll (by rw [hopened]) htransforms
    (fun s hs => by
      rw [Desk.search_rename hρ] at hs
      obtain ⟨s, hmem, rfl⟩ := List.mem_map.mp hs
      exact (htidy.lookUps s hmem).rename hρ hkept)
    (by rw [hlookUp]; exact hlooked)
  rw [hlookUp] at hdesk hreflects
  have hstarted := m.started_looked criteria
  have hrenamable : (m.looked criteria).IsRenamable ρ := by
    refine ⟨fun n hn => hfree n ?_, fun r hr => htransforms _ (hstarted.registered r hr)⟩
    rwa [looked, Desk.nextMark_lookUpAll, opened_of_faultless hfaultless] at hn
  have hfinish : ((m.looked criteria).rename ρ).finish m.caching = (m.landed criteria).rename ρ :=
    Desk.finish_rename hρ hrenamable m.caching
  -- … and so are all deeds.
  have hfresh : ((m.looked criteria).rename ρ).IsFresh := fun r' hr' => by
    obtain ⟨r, hr, rfl⟩ := List.mem_map.mp hr'
    rw [Run.through, hstarted.fresh r hr, Option.map_none]
  obtain ⟨more', hdesk', hreflects'⟩ := hreflects.finish
    (fun s hs => by
      refine ⟨?_, Desk.isDue_of_mem_flight hfresh hs⟩
      rw [Desk.flight_rename hρ hrenamable] at hs
      obtain ⟨s, hmem, rfl⟩ := List.mem_map.mp hs
      exact (htidy.hands s hmem).rename hρ hkept)
    (by rw [hfinish]; exact hlanded)
  rw [hfinish] at hdesk' hreflects'
  refine ⟨ρ, more', waiting, ?_, hreflects'⟩
  rw [openedTogether, placeCalls_beside hfaultless, ← hopened, hdesk, hdesk']

/-! ## What comes of each call -/

/-- What a desk holds for a later call is what it holds for the first one, where the copies hold the
same. -/
theorem outcome_later {d d' : Desk} {call k size : Nat} (items : List Value) (isList : Bool)
    (hsize : (items.filter m.isCopied).length = size) (hd : Entries.find? 0 d.faults = none)
    (hd' : Entries.find? call d'.faults = none)
    (hcopies : ∀ i < size, (d'.copies[k + i]?.map fun c => c.value.unmarked) =
      d.copies[i]?.map fun c => c.value.unmarked) :
    outcome d' call ⟨isList, m.slots k items⟩ = outcome d 0 ⟨isList, m.slots 0 items⟩ := by
  have hresult : ∀ s ∈ m.slots 0 items,
      result d' { s with copy? := s.copy?.map (k + ·) } = result d s := by
    rintro ⟨given, _ | i⟩ hs
    · rfl
    · have hlt := lt_of_mem_slots rfl items hs
      have hsame := hcopies i (by omega)
      rw [result, result]
      dsimp only [Option.map_some, Option.bind_some]
      rcases hc : d.copies[i]? with _ | c <;> rcases hc' : d'.copies[k + i]? with _ | c' <;>
        rw [hc, hc'] at hsame
      · cases hsame
      · cases hsame
      · exact Option.some.inj hsame
  have hslots := m.slots_later k items 0
  rw [Nat.add_zero] at hslots
  have hvalues : (m.slots 0 items).map
      (result d' ∘ fun s : CriteriaSlot => { s with copy? := s.copy?.map (k + ·) }) =
        (m.slots 0 items).map (result d) := List.map_congr_left hresult
  have hnone : (fun s : CriteriaSlot => s.copy?.isNone) ∘
      (fun s : CriteriaSlot => { s with copy? := s.copy?.map (k + ·) }) = fun s => s.copy?.isNone :=
    funext fun s => by
      obtain ⟨given, _ | i⟩ := s <;> rfl
  rw [outcome, outcome, hd, hd', hslots]
  dsimp only
  rw [List.map_map, List.all_map, hvalues, hnone]

theorem length_landed (h : ∀ c ∈ criteria.criteria, m.placeFault? c = none) :
    (m.landed criteria).copies.length = (m.copiesOf criteria).length := by
  have hcalls : (m.landed criteria).copies.map WorkingCopy.call =
      (m.looked criteria).copies.map WorkingCopy.call := by
    rw [landed, Desk.finish_eq_deeds]
    exact (Desk.invariant (P := fun d => d.copies.map WorkingCopy.call =
      (m.looked criteria).copies.map WorkingCopy.call) rfl
      fun s _ hs => (Desk.calls_perform s.1 s.2).trans hs).2
  have hlength := Desk.length_copies_of_calls (hcalls.trans (Desk.calls_lookUpAll ..))
  rwa [opened_of_faultless h] at hlength

/-- At the end each copy of a later call holds what that of the first call holds. -/
theorem unmarked_copies_later {ρ : Nat → Nat} {more : List WorkingCopy}
    {waiting : CacheKey → List Nat}
    (hlength : (m.landed criteria).copies.length = (m.copiesOf criteria).length)
    (h : ((m.landed criteria).rename ρ).Reflects (m.layout criteria calls) m.keptMarks waiting more)
    {call i : Nat} (hcall : call < calls + 1) (hi : i < (m.copiesOf criteria).length) :
    ((((m.landed criteria).rename ρ).beside more waiting).copies[
        call * (m.copiesOf criteria).length + i]?.map fun c => c.value.unmarked) =
      (m.landed criteria).copies[i]?.map fun c => c.value.unmarked := by
  have hc := List.getElem?_eq_getElem (hlength.symm ▸ hi : i < (m.landed criteria).copies.length)
  have hrenamed : ((m.landed criteria).rename ρ).copies[i]? =
      some { (m.landed criteria).copies[i] with value := (m.landed criteria).copies[i].value.rename ρ } := by
    rw [Desk.getElem?_copies_rename, hc, Option.map_some]
  have hlength' : ((m.landed criteria).rename ρ).copies.length = (m.copiesOf criteria).length :=
    (List.length_map ..).trans hlength
  cases call with
  | zero =>
    rw [Nat.zero_mul, Nat.zero_add, Desk.getElem?_beside_left hrenamed, hc, Option.map_some,
      Option.map_some, Value.unmarked_rename]
  | succ call =>
    have hindex : (call + 1) * (m.copiesOf criteria).length + i =
        ((m.landed criteria).rename ρ).copies.length +
          (call * (m.copiesOf criteria).length + i) := by
      rw [hlength', Nat.succ_mul]
      omega
    obtain ⟨hlt, hmodel⟩ := layout_place (Nat.lt_of_succ_lt_succ hcall) hi
    rw [← h.size] at hlt
    have hx := List.getElem?_eq_getElem hlt
    obtain ⟨c, hmirrored, hmirrors⟩ := h.mirrors hx
    rw [hmodel, hrenamed] at hmirrored
    obtain rfl := Option.some.inj hmirrored
    rw [hindex, Desk.getElem?_beside_right, hx, hc, Option.map_some, Option.map_some,
      hmirrors.unmarked_eq, Value.unmarked_rename]

/-- **Calls for the same criteria come to the same**: where transforms do not depend on what marks are,
and nothing is put into a container of a kept result or of an outcome, several calls that are run together
come to what one of them comes to alone, if that comes to something. -/
theorem run_replicate (htransforms : ∀ e ∈ m.transforms, e.2.IgnoresMarks)
    (hbelow : ∀ n ∈ m.keptMarks, n < m.nextMark) (htidy : m.IsTidy criteria) {a : Mutated}
    (halone : (m.mutate criteria).1 = .ok a) : ∀ calls,
    (m.run (List.replicate calls criteria)).1 = List.replicate calls (.ok a)
  | 0 => rfl
  | calls + 1 => by
    obtain ⟨hlanded, -, hfaultless⟩ := find?_fault_of_ok halone
    obtain ⟨ρ, more, waiting, hdesk, hreflects⟩ :=
      reflects_landed htransforms hbelow htidy halone calls
    have hsize : (m.copied criteria).length = (m.copiesOf criteria).length :=
      (m.exists_areCopies (m.copied criteria)).choose_spec.choose_spec.length.symm
    have hplaced := placeCalls_beside hfaultless calls
    have hrun : (m.run (List.replicate (calls + 1) criteria)).1 =
        ((m.placeCalls 0 ⟨[], [], m.cache, m.nextMark, []⟩
          (List.replicate (calls + 1) criteria)).2).mapIdx
          (outcome (((m.openedTogether criteria (calls + 1)).lookUpAll m.transforms).finish
            m.caching)) := rfl
    rw [hrun, hplaced, hdesk]
    refine List.ext_getElem? fun call => ?_
    rw [List.getElem?_mapIdx, List.getElem?_map]
    by_cases hcall : call < calls + 1
    · rw [List.getElem?_range' hcall, List.getElem?_replicate_of_lt hcall, Option.map_some,
        Option.map_some, Nat.zero_add, Nat.one_mul, ← halone, mutate_eq_outcome]
      refine congrArg some (outcome_later criteria.criteria _ hsize hlanded ?_ fun i hi => ?_)
      · exact (congrArg (Entries.find? call) hreflects.faults).trans (Entries.find?_nil _)
      · exact unmarked_copies_later (length_landed hfaultless) hreflects hcall hi
    · have hle : calls + 1 ≤ call := Nat.not_lt.mp hcall
      rw [List.getElem?_eq_none (by rwa [List.length_range']),
        List.getElem?_eq_none (by rwa [List.length_replicate])]
      rfl

end Mutator

end Verdict
