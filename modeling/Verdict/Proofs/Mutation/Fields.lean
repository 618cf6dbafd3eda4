import Verdict.Proofs.Mutation.Placement
import Verdict.Proofs.Mutation.Runs

/-!
# Proofs/Mutation/Fields — the fields of criteria, and what becomes of them together

    copies ──fields──▸ requests ──▸ outcomes ──▸ errands of each copy ──receive──▸ results

The fields that transforms change in a copy are those of the criteria alone, with other marks
(`Field.requests_rename`).  Where handing out the outcomes is orderly, what comes of items that are
mutated together is the first fault among them, or what each copy is after its errands
(`Mutator.together_of_orderly`).
-/

namespace Verdict

namespace Field

variable {ρ : Nat → Nat} {transforms : List (String × Transform)} {root : Value}

/-- The fields of a root that transforms change, with their keys. -/
def requests (transforms : List (String × Transform)) (root : Value) : List (CacheKey × Field) :=
  transforms.filterMap fun e =>
    match lookUp? root e with
    | .ok q? => q?
    | .error _ => none

/-- The first fault of looking up fields in a root. -/
def fault? (transforms : List (String × Transform)) (root : Value) : Option Fault :=
  transforms.findSome? fun e =>
    match lookUp? root e with
    | .ok _ => none
    | .error f => some f

section Remark

variable {f : Value → Value} {g : Mark → Mark}

theorem lookUp?_remark (h : Value.Remarks f g) (root : Value) (e : String × Transform) :
    lookUp? (f root) e =
      (lookUp? root e).map (Option.map fun q => (q.1, { q.2 with input := f q.2.input })) := by
  rw [lookUp?, lookUp?, h.resolve]
  rcases Path.resolve e.1 root with fault | (_ | v)
  · rfl
  · rfl
  · have hkey : cacheKey e.1 (f v) = cacheKey e.1 v := cacheKey_congr e.1 (h.unmarked_eq v)
    dsimp only [Except.map, Option.map]
    rw [hkey]
    cases cacheKey e.1 v <;> rfl

theorem requests_remark (h : Value.Remarks f g) (transforms : List (String × Transform))
    (root : Value) : requests transforms (f root) =
      (requests transforms root).map fun q => (q.1, { q.2 with input := f q.2.input }) := by
  rw [requests, requests, List.map_filterMap]
  refine congrArg (List.filterMap · transforms) (funext fun e => ?_)
  rw [lookUp?_remark h]
  cases lookUp? root e <;> rfl

theorem fault?_remark (h : Value.Remarks f g) (transforms : List (String × Transform))
    (root : Value) : fault? transforms (f root) = fault? transforms root := by
  refine congrArg (List.findSome? · transforms) (funext fun e => ?_)
  rw [lookUp?_remark h]
  cases lookUp? root e <;> rfl

end Remark

theorem requests_rename (transforms : List (String × Transform)) (root : Value) :
    requests transforms (root.rename ρ) =
      (requests transforms root).map fun q => (q.1, q.2.rename ρ) :=
  requests_remark (Value.remarks_rename ρ) transforms root

/-- A field is of a transform, and what its path leads to; its key has its name. -/
theorem of_mem_requests {q : CacheKey × Field} (h : q ∈ requests transforms root) :
    (q.2.name, q.2.transform) ∈ transforms ∧
      Path.resolve q.2.name root = .ok (some q.2.input) ∧ q.1.1 = q.2.name := by
  obtain ⟨e, he, hq⟩ := List.mem_filterMap.mp h
  split at hq
  · next q? hlookUp =>
    subst hq
    rw [lookUp?] at hlookUp
    split at hlookUp
    · cases hlookUp
    · cases hlookUp
    · next v hv =>
      cases hkey : cacheKey e.1 v with
      | error f => rw [hkey] at hlookUp; cases hlookUp
      | ok key =>
        rw [hkey] at hlookUp
        obtain rfl := Option.some.inj (Except.ok.inj hlookUp)
        rw [cacheKey] at hkey
        refine ⟨he, hv, ?_⟩
        cases hplain : v.plain with
        | error f => rw [hplain] at hkey; cases hkey
        | ok s =>
          rw [hplain] at hkey
          exact (congrArg Prod.fst (Except.ok.inj hkey)).symm
  · cases hq

end Field

namespace Desk

/-- The requests of copies, copy by copy. -/
def requests (transforms : List (String × Transform)) (copies : List WorkingCopy) : List Request :=
  copies.zipIdx.flatMap fun (c, i) => (Field.requests transforms c.value).map (Prod.mk i)

theorem requests_of_asked (transforms : List (String × Transform)) (copies : List WorkingCopy) :
    (asked transforms 0 copies).filterMap Asked.request? = requests transforms copies := by
  rw [asked, requests, List.filterMap_flatMap]
  refine congrArg (List.flatMap · _) (funext fun a => ?_)
  obtain ⟨c, i⟩ := a
  dsimp only
  rw [List.filterMap_map, Field.requests, List.map_filterMap]
  refine congrArg (List.filterMap · transforms) (funext fun e => ?_)
  rw [Function.comp, Asked.request?]
  rcases Field.lookUp? c.value e with f | (_ | q) <;> rfl

/-- The fault of looking up all fields of copies of one call is the first one of a copy. -/
theorem find?_fault_of_asked (transforms : List (String × Transform)) (copies : List WorkingCopy) :
    ∀ first, (∀ c ∈ copies, c.call = 0) →
    Entries.find? 0 ((asked transforms first copies).filterMap Asked.fault?) =
      copies.findSome? fun c => Field.fault? transforms c.value := by
  induction copies with
  | nil => exact fun _ _ => rfl
  | cons c rest ih =>
    intro first h
    obtain ⟨hcall, hrest⟩ := List.forall_mem_cons.mp h
    have hfirst : (transforms.map fun e => Asked.mk first c.call (Field.lookUp? c.value e)).filterMap
        Asked.fault? = transforms.filterMap fun e =>
          (match Field.lookUp? c.value e with
          | .ok _ => none
          | .error f => some f).map (Prod.mk 0) := by
      rw [List.filterMap_map]
      refine congrArg (List.filterMap · transforms) (funext fun e => ?_)
      rw [Function.comp, Asked.fault?, hcall]
      cases Field.lookUp? c.value e <;> rfl
    have hcons : asked transforms first (c :: rest) =
        (transforms.map fun e => Asked.mk first c.call (Field.lookUp? c.value e)) ++
          asked transforms (first + 1) rest := by
      rw [asked, List.zipIdx_cons, List.flatMap_cons, asked]
    rw [hcons, List.filterMap_append, Entries.find?_append, hfirst, Entries.find?_filterMap,
      ih _ hrest, List.findSome?_cons, Field.fault?]
    cases transforms.findSome? _ <;> rfl

/-- Of elements that are numbered, the only one of a number. -/
theorem flatMap_zipIdx_ite {α β : Type} (ys : List β) (l : List α) : ∀ first i : Nat,
    i < l.length → (l.zipIdx first).flatMap (fun a => if a.2 = first + i then ys else []) = ys := by
  induction l with
  | nil => exact fun _ _ h => absurd h (Nat.not_lt_zero _)
  | cons x rest ih =>
    intro first i h
    rw [List.zipIdx_cons, List.flatMap_cons]
    cases i with
    | zero =>
      have hrest : (rest.zipIdx (first + 1)).flatMap
          (fun a => if a.2 = first + 0 then ys else []) = [] :=
        List.flatMap_eq_nil_iff.mpr fun a ha => if_neg (by
          have := List.le_snd_of_mem_zipIdx ha
          omega)
      rw [hrest, if_pos (Nat.add_zero first).symm, List.append_nil]
    | succ i =>
      have hi := ih (first + 1) i (Nat.lt_of_succ_lt_succ h)
      rw [if_neg (by dsimp only; omega), List.nil_append]
      rwa [Nat.add_right_comm] at hi

/-- Requests that are those of one copy. -/
theorem filter_requests {transforms : List (String × Transform)} {copies : List WorkingCopy}
    {p : Request → Bool} {i : Nat} {c : WorkingCopy} (hc : copies[i]? = some c)
    (hself : ∀ q ∈ Field.requests transforms c.value, p (i, q) = true)
    (hother : ∀ j c', copies[j]? = some c' → j ≠ i → ∀ q ∈ Field.requests transforms c'.value,
      p (j, q) = false) :
    (requests transforms copies).filter p =
      (Field.requests transforms c.value).map (Prod.mk i) := by
  have hlt : i < copies.length := (List.getElem?_eq_some_iff.mp hc).1
  have hpick := flatMap_zipIdx_ite ((Field.requests transforms c.value).map (Prod.mk i)) copies 0 i hlt
  rw [Nat.zero_add] at hpick
  rw [requests, List.filter_flatMap, List.flatMap_def, ← hpick, List.flatMap_def]
  refine congrArg List.flatten (List.map_congr_left fun a ha => ?_)
  obtain ⟨c', j⟩ := a
  have hc' : copies[j]? = some c' := List.mem_zipIdx_iff_getElem?.mp ha
  dsimp only
  split
  · next hj =>
    subst hj
    obtain rfl := Option.some.inj (hc.symm.trans hc')
    refine List.filter_eq_self.mpr fun q hq => ?_
    obtain ⟨q', hq', rfl⟩ := List.mem_map.mp hq
    exact hself q' hq'
  · next hj =>
    refine List.filter_eq_nil_iff.mpr fun q hq => ?_
    obtain ⟨q', hq', rfl⟩ := List.mem_map.mp hq
    rw [hother j c' hc' hj q' hq']
    exact Bool.false_ne_true

/-- The runs of all fields of copies, as they are when all of them are applied. -/
def outcomes (transforms : List (String × Transform)) (copies : List WorkingCopy) (next : Nat) :
    List Run :=
  (Run.applyEach copies next (enrollAll (requests transforms copies) [])).1

/-- A run is of a transform that is registered. -/
theorem exists_of_mem_requests {transforms : List (String × Transform)}
    {copies : List WorkingCopy} {q : Request} (h : q ∈ requests transforms copies) :
    ∃ c, copies[q.1]? = some c ∧ q.2 ∈ Field.requests transforms c.value := by
  obtain ⟨⟨c, i⟩, hmem, hq⟩ := List.mem_flatMap.mp h
  obtain ⟨q', hq', rfl⟩ := List.mem_map.mp hq
  exact ⟨c, List.mem_zipIdx_iff_getElem?.mp hmem, hq'⟩

/-- **Where hands are orderly, looking up all fields and letting all runs come to their end leaves
each copy as its errands do**, and no faults but those of the look-ups. -/
theorem finish_lookUpAll {d : Desk} (hcache : d.cache = []) (hruns : d.runs = [])
    {transforms : List (String × Transform)} (hpauses : ∀ e ∈ transforms, e.2.pauses = 0)
    {W : Nat → Nat → Prop} (horderly : ∀ d' : Desk, d'.copies = d.copies →
      d'.runs = outcomes transforms d.copies d.nextMark → d'.IsOrderly W (Run.hands 0 d'.runs)) :
    ((d.lookUpAll transforms).finish false).faults =
      ((asked transforms 0 d.copies).filterMap Asked.fault?).foldl withFault d.faults ∧
    ((d.lookUpAll transforms).finish false).copies = d.copies.mapIdx fun i c =>
      { c with
        value := c.value.receive
          (Run.errandsFor i (outcomes transforms d.copies d.nextMark)) } := by
  have hstarted : (d.note (asked transforms 0 d.copies)).runs =
      enrollAll (requests transforms d.copies) [] := by
    rw [note, requests_of_asked, hruns]
    rfl
  have hpauses' : ∀ r ∈ (d.note (asked transforms 0 d.copies)).runs, r.transform.pauses = 0 := by
    rw [hstarted]
    intro r hr
    have hfrom := Run.comesFrom_enrollAll _ (List.Subset.refl (requests transforms d.copies))
      (List.forall_mem_nil _) r hr
    obtain ⟨q, hq, -, -, htransform, -⟩ := hfrom.start
    obtain ⟨c, -, hfield⟩ := exists_of_mem_requests hq
    rw [htransform]
    exact hpauses _ (Field.of_mem_requests hfield).1
  have hhanded : ∀ d' : Desk, d'.copies = d.copies →
      d'.runs = outcomes transforms d.copies d.nextMark →
      (d'.handAll (Run.hands 0 d'.runs)).faults = d'.faults ∧
      (d'.handAll (Run.hands 0 d'.runs)).copies = d.copies.mapIdx fun i c =>
        { c with
          value := c.value.receive
            (Run.errandsFor i (outcomes transforms d.copies d.nextMark)) } := by
    intro d' hcopies hruns
    obtain ⟨hfaults, hreceived⟩ := copies_handAll _ (horderly d' hcopies hruns)
    refine ⟨hfaults, hreceived.trans ?_⟩
    simp only [Run.errands_hands]
    rw [hcopies, hruns]
  -- Without pauses, all runs are applied before the first outcome is handed out.
  rw [lookUpAll_eq hcache, finish_eq hpauses', hstarted]
  exact hhanded _ rfl rfl

end Desk

namespace Mutator

open WorkingCopy (ofEach)

variable {m : Mutator}

/-- The fault of items that are mutated together: of placing them, or else of looking up fields. -/
def fault? (m : Mutator) (items : List Value) : Option Fault :=
  (items.findSome? m.placeFault?).or
    ((items.filter m.isCopied).findSome? fun c => Field.fault? m.transforms (m.copyOf c))

/-- What criteria alone become: their copy after its own errands, if they have one. -/
def mutated (m : Mutator) (c : Value) : Value :=
  if m.isCopied c then
    ((m.copyOf c).receive (Run.errandsFor 0
      (Desk.outcomes m.transforms [⟨0, m.copyOf c⟩] (c.copied m.nextMark).2))).unmarked
  else c

theorem AreCopies.call_eq {cs : List Value} {copies : List WorkingCopy} {next : Nat}
    {shift owner : Nat → Nat} (h : m.AreCopies cs copies next shift owner) :
    ∀ c ∈ copies, c.call = 0 := fun copy hcopy => by
  obtain ⟨i, hi, rfl⟩ := List.mem_iff_getElem.mp hcopy
  have hc := h.copy (List.getElem?_eq_getElem (h.length ▸ hi))
  rw [List.getElem?_eq_getElem hi] at hc
  rw [Option.some.inj hc]

/-- The first fault of looking up fields in copies is that of the criteria alone. -/
theorem AreCopies.findSome?_fault? {cs : List Value} {copies : List WorkingCopy} {next : Nat}
    {shift owner : Nat → Nat} (h : m.AreCopies cs copies next shift owner) :
    (copies.findSome? fun c => Field.fault? m.transforms c.value) =
      cs.findSome? fun c => Field.fault? m.transforms (m.copyOf c) := by
  have hmap : (copies.map fun c => Field.fault? m.transforms c.value) =
      cs.map fun c => Field.fault? m.transforms (m.copyOf c) := by
    refine List.ext_getElem? fun i => ?_
    rw [List.getElem?_map, List.getElem?_map]
    cases hc : cs[i]? with
    | none =>
      rw [List.getElem?_eq_none_iff, ← h.length, ← List.getElem?_eq_none_iff] at hc
      rw [hc]
      rfl
    | some c => rw [h.copy hc, Option.map_some, Option.map_some,
      Field.fault?_remark (Value.remarks_rename _)]
  have hfind := congrArg (List.findSome? id) hmap
  rwa [List.findSome?_map, List.findSome?_map] at hfind

/-- **What comes of items that are mutated together**, where handing out outcomes is orderly and leads
to what each of them becomes alone. -/
theorem together_of_orderly (hcaching : m.caching = false) (hcache : m.cache = [])
    (hpauses : ∀ e ∈ m.transforms, e.2.pauses = 0) {items : List Value} {next : Nat}
    {copies : List WorkingCopy} {shift owner : Nat → Nat}
    (heach : ofEach 0 m.nextMark (items.filter m.isCopied) = (copies, next))
    (hcopies : m.AreCopies (items.filter m.isCopied) copies next shift owner)
    {W : Nat → Nat → Prop} (horderly : ∀ d : Desk, d.copies = copies →
      d.runs = Desk.outcomes m.transforms copies next → d.IsOrderly W (Run.hands 0 d.runs))
    (hfinal : ∀ i c, (items.filter m.isCopied)[i]? = some c →
      (((m.copyOf c).rename (· + shift i)).receive
        (Run.errandsFor i (Desk.outcomes m.transforms copies next))).unmarked = m.mutated c) :
    m.together items =
      match m.fault? items with
      | some f => .error f
      | none => .ok (items.map m.mutated) := by
  obtain ⟨d, slots, hplace⟩ : ∃ d slots,
      m.placeItems 0 ⟨[], [], m.cache, m.nextMark, []⟩ items = (d, slots) := ⟨_, _, rfl⟩
  have hplaced := placeItems_fst (m := m) 0 items ⟨[], [], m.cache, m.nextMark, []⟩
  rw [hplace, heach] at hplaced
  dsimp only [List.nil_append] at hplaced
  obtain rfl := hplaced
  obtain ⟨hfaults, hfinished⟩ := Desk.finish_lookUpAll (d := ⟨copies, [], m.cache, next, _⟩) hcache
    rfl hpauses horderly
  have hresults := map_result_placeItems (m := m) m.mutated _ 0 items
    ⟨[], [], m.cache, m.nextMark, []⟩ fun i c hc => by
      rw [hfinished, List.length_nil, Nat.zero_add, List.getElem?_mapIdx, hcopies.copy hc]
      exact ⟨_, rfl, hfinal i c hc⟩
  rw [hplace] at hresults
  rw [together, hplace, hcaching]
  dsimp only at hresults ⊢
  rw [hfaults, Desk.find?_foldl_withFault, hresults, Desk.find?_foldl_withFault]
  have hvalues : (items.map fun c => if m.isCopied c then m.mutated c else c) =
      items.map m.mutated := List.map_congr_left fun c _ => by
    rw [mutated]
    split <;> rfl
  have hfault : ((Entries.find? 0 ([] : List (Nat × Fault))).or (Entries.find? 0
      (items.filterMap fun c => (m.placeFault? c).map (Prod.mk 0)))).or (Entries.find? 0
      ((Desk.asked m.transforms 0 copies).filterMap Desk.Asked.fault?)) = m.fault? items := by
    rw [Entries.find?_nil, Option.none_or, Entries.find?_filterMap,
      Desk.find?_fault_of_asked _ _ 0 hcopies.call_eq, hcopies.findSome?_fault?, fault?]
  rw [hfault]
  cases m.fault? items with
  | none => exact congrArg Except.ok hvalues
  | some f => rfl

end Mutator

end Verdict
