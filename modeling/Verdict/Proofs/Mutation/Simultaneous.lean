import Verdict.Proofs.Limit
import Verdict.Proofs.Mutation.Recall
import Verdict.Proofs.Path.Location

/-!
# Proofs/Mutation/Simultaneous — all fields change at once

    c   ──paths──▸        v₁, v₂, …    read from c, all of them
        ──transforms──▸   a₁, a₂, …    after however many pauses, in whatever order
        ──places──▸       c with each aᵢ where vᵢ was

Where paths lead to locations apart, a call puts each answer in the place of the value that it is for,
and leaves everything else as it was (`Mutator.mutate_updates`).
-/

namespace Verdict

namespace Value

variable {place? : String → Option Place} {s : Place} {root inner : Value}

/-- **What is apart from all errands stays.** -/
theorem at?_putEach_of_apart : ∀ {errands : List (String × Value)},
    (∀ e ∈ errands, ∀ t ∈ place? e.1, s.Apart t) → ∀ root : Value,
      at? s (putEach place? errands root) = at? s root
  | [], _, _ => rfl
  | e :: rest, h, root => by
    obtain ⟨he, hrest⟩ := List.forall_mem_cons.mp h
    rw [putEach, List.foldl_cons]
    refine (at?_putEach_of_apart hrest _).trans ?_
    cases hplace : place? e.1 with
    | none => rfl
    | some t => exact at?_setAt_of_apart (he t hplace)

/-- **An errand is at its place**, where all others are apart from it. -/
theorem at?_putEach_of_mem {errands : List (String × Value)}
    (hapart : errands.Pairwise fun e e' => ∀ s ∈ place? e.1, ∀ s' ∈ place? e'.1, s.Apart s')
    {e : String × Value} (he : e ∈ errands) (hs : place? e.1 = some s)
    (hthere : root.at? s = some inner) : (putEach place? errands root).at? s = some e.2 := by
  obtain ⟨before, after, rfl⟩ := List.append_of_mem he
  obtain ⟨-, hafter, hbefore⟩ := List.pairwise_append.mp hapart
  have hother : ∀ e' ∈ after, ∀ t ∈ place? e'.1, s.Apart t :=
    fun e' he' t ht => (List.pairwise_cons.mp hafter).1 e' he' s hs t ht
  have hfirst : ∀ e' ∈ before, ∀ t ∈ place? e'.1, s.Apart t :=
    fun e' he' t ht => (hbefore e' he' e (List.mem_cons_self ..) t ht s hs).symm
  have hbefore' : (putEach place? before root).at? s = some inner :=
    (at?_putEach_of_apart hfirst root).trans hthere
  rw [putEach, List.foldl_append, List.foldl_cons, hs, putIn]
  exact (at?_putEach_of_apart hother _).trans (at?_setAt_self hbefore' e.2)

end Value

/-! ## Nothing kept -/

namespace Desk

/-- Requests of the only copy, each for a key of its own, start their runs. -/
theorem enrollAll_single : ∀ (qs : List (CacheKey × Field)) (runs : List Run),
    (runs.map Run.key ++ qs.map Prod.fst).Nodup →
      enrollAll (qs.map (Prod.mk 0)) runs =
        runs ++ qs.map fun q => ⟨q.1, q.2.transform, [0], q.2.input, none⟩
  | [], runs, _ => (List.append_nil runs).symm
  | q :: rest, runs, h => by
    have hnew : ∀ r ∈ runs, r.key ≠ q.1 := fun r hr heq =>
      (List.nodup_append.mp h).2.2 _ (List.mem_map_of_mem hr) _ (List.mem_cons_self ..) heq
    have hlater := enrollAll_single rest (enroll 0 q runs) (by
      rwa [enroll_new hnew, List.map_append, List.append_assoc])
    refine hlater.trans ?_
    rw [enroll_new hnew, List.append_assoc]
    rfl

end Desk

namespace Field

variable {transforms : List (String × Transform)} {root : Value} {content : CacheKey → Value}

/-- **With nothing kept, each field ends up with its answer**, and the call has failed if a look-up
did. -/
theorem Spread.finish_lookUpAll (hspread : Spread transforms root content) {d : Desk}
    (h : d.OnCourse transforms root content []) (hruns : d.runs = []) (hfaults : d.faults = [])
    (hcache : d.cache = []) (caching : Bool) : ∃ done,
    ((d.lookUpAll transforms).finish caching).OnCourse transforms root content done ∧
      (done.map Prod.fst).Perm ((requests transforms root).map Prod.fst) ∧
      Entries.find? 0 ((d.lookUpAll transforms).finish caching).faults = fault? transforms root := by
  have hcopies : d.copies = [⟨0, root⟩] := h.copies
  have hrequests : Desk.requests transforms d.copies =
      (requests transforms root).map (Prod.mk 0) := by
    rw [hcopies, Desk.requests]
    exact List.flatMap_singleton ..
  have hkeys := nodup_keys_requests hspread.names root
  have hlookUpAll := Desk.lookUpAll_eq hcache transforms
  rw [Desk.note, Desk.requests_of_asked, hrequests, hruns, hfaults] at hlookUpAll
  have hstarted : (d.lookUpAll transforms).runs = (requests transforms root).map fun q =>
      ⟨q.1, q.2.transform, [0], q.2.input, none⟩ := by
    rw [hlookUpAll]
    exact Desk.enrollAll_single _ [] hkeys
  have hstartedKeys : (d.lookUpAll transforms).runs.map Run.key =
      (requests transforms root).map Prod.fst := by
    rw [hstarted, List.map_map]
    rfl
  have hd : (d.lookUpAll transforms).OnCourse transforms root content [] := by
    refine ⟨?_, .nil, fun r hr => ?_, hstartedKeys ▸ hkeys, ?_, ?_⟩
    · rw [hlookUpAll]
      exact hcopies
    · rw [hstarted] at hr
      obtain ⟨q, hq, rfl⟩ := List.mem_map.mp hr
      exact ⟨rfl, ⟨q, hq, rfl, rfl, fun _ => rfl⟩, fun o ho => by cases ho⟩
    · rw [hlookUpAll]
      exact h.cache
    · rw [hlookUpAll]
      exact h.below
  have hfresh := (Desk.started_lookUpAll hruns transforms).2.fresh
  obtain ⟨done, hdone, hperm, hfaults'⟩ := hspread.finish hd hfresh caching
    (by rw [hstartedKeys]; exact .refl _)
  refine ⟨done, hdone, hperm, ?_⟩
  rw [hfaults', hlookUpAll]
  refine (Desk.find?_foldl_withFault 0 _ []).trans ?_
  rw [Entries.find?_nil, Option.none_or, hcopies, Desk.find?_fault_of_asked _ _ 0 (by simp)]
  rw [List.findSome?_singleton]

end Field

namespace Mutator

/-! ## What becomes of criteria -/

/-- What the transform of a field answers to what its path leads to in the criteria. -/
def answer? (c : Value) (e : String × Transform) : Option (String × Value) :=
  match Path.resolve e.1 c with
  | .ok (some v) => (e.2.apply v c).toOption.map fun a => (e.1, a.unmarked)
  | _ => none

/-- Criteria with all fields changed: the answer for each one in its place. -/
def updated (m : Mutator) (c : Value) : Value :=
  Value.putEach (Path.place? · c) (m.transforms.filterMap (answer? c)) c.unmarked

/-- A mutator with nothing kept and criteria whose fields have locations apart. -/
structure Updates (m : Mutator) (c : Value) : Prop where
  cache : m.cache = []
  names : m.names.Nodup
  object : ∃ mark fields, c = .object mark fields
  /-- The transforms depend on the value alone … -/
  ofValue : ∀ e ∈ m.transforms, ∀ v w x y : Value, v.unmarked = w.unmarked →
    (e.2.apply v x).map Value.unmarked = (e.2.apply w y).map Value.unmarked
  /-- … and hand out containers of it, new ones, or ones that were there before the call. -/
  containers : ∀ e ∈ m.transforms, ∀ v x a : Value, e.2.apply v x = .ok a →
    ∀ n ∈ a.marks, n ∈ v.marks ∨ n < m.nextMark
  succeeds : ∀ e ∈ m.transforms, ∀ v, Path.resolve e.1 c = .ok (some v) → ∃ a, e.2.apply v c = .ok a
  /-- Each path leads somewhere or nowhere, … -/
  resolves : ∀ e ∈ m.transforms, ∃ found, Path.resolve e.1 c = .ok found
  /-- … has no wildcard, … -/
  single : ∀ e ∈ m.transforms, ∀ ss, Path.segments e.1 = .ok (some ss) →
    Segment.hasWildcard ss = false
  /-- … and is no field of the criteria if it starts with a dollar sign. -/
  reads : ∀ e ∈ m.transforms, ¬ Path.ReadsElsewhere e.1 c
  apart : m.transforms.Pairwise fun e e' =>
    ∀ s ∈ Path.location? e.1 c, ∀ s' ∈ Path.location? e'.1 c, s.Apart s'
  /-- No container that is written into occurs in the criteria a second time. -/
  once : ∀ e ∈ m.transforms, ∀ p, Path.IsInto e.1 (m.copyOf c) p →
    (m.copyOf c).marks.count p = 1

variable {m : Mutator} {c : Value} {content : CacheKey → Value} {q q' : CacheKey × Field} {p : Nat}

theorem unmarked_copyOf (m : Mutator) (c : Value) : (m.copyOf c).unmarked = c.unmarked :=
  Value.unmarked_copied c m.nextMark

namespace Updates

/-- Two transforms have locations apart. -/
theorem apart_of_ne (h : m.Updates c) {e e' : String × Transform} (he : e ∈ m.transforms)
    (he' : e' ∈ m.transforms) (hne : e.1 ≠ e'.1) {s s' : Place}
    (hs : Path.location? e.1 c = some s) (hs' : Path.location? e'.1 c = some s') : s.Apart s' := by
  have hsymm : Std.Symm fun e e' : String × Transform =>
      ∀ s ∈ Path.location? e.1 c, ∀ s' ∈ Path.location? e'.1 c, s.Apart s' :=
    ⟨fun _ _ hst s hs s' hs' => (hst s' hs' s hs).symm⟩
  exact h.apart.forall he he' (fun heq => hne (congrArg Prod.fst heq)) s hs s' hs'

/-- A field of the copy stands at its location. -/
theorem exists_location (h : m.Updates c) (hq : q ∈ Field.requests m.transforms (m.copyOf c)) :
    ∃ s, Path.location? q.2.name c = some s ∧
      (s ≠ [] → (m.copyOf c).at? s = some q.2.input) := by
  obtain ⟨he, hresolve, -⟩ := Field.of_mem_requests hq
  have hsame := unmarked_copyOf m c
  have hreads : ¬ Path.ReadsElsewhere q.2.name (m.copyOf c) := fun ⟨hrooted, hfield⟩ =>
    h.reads _ he ⟨hrooted, by
      rwa [← Value.remarks_unmarked.hasField, ← hsame, Value.remarks_unmarked.hasField]⟩
  obtain ⟨s, hs⟩ := Path.exists_location?_of_resolve hresolve (h.single _ he)
  refine ⟨s, (Path.location?_congr hsame _).symm.trans hs, fun hne => ?_⟩
  have hplace : Path.place? q.2.name (m.copyOf c) = some s := by
    rw [Path.place?_eq_location?, hs, Option.filter_some, if_pos (by simpa using hne)]
  rw [Path.resolve_of_place? hplace hreads] at hresolve
  exact Except.ok.inj hresolve

/-- **No field holds a container around a field**, of another one or of itself. -/
theorem not_mem_marks (h : m.Updates c) (hq : q ∈ Field.requests m.transforms (m.copyOf c))
    (hq' : q' ∈ Field.requests m.transforms (m.copyOf c))
    (hinto : Path.IsInto q'.2.name (m.copyOf c) p) : p ∉ q.2.input.marks := by
  have hone := h.once _ (Field.of_mem_requests hq').1 p hinto
  obtain ⟨outer, slot, around, hplace, haround, hp⟩ := hinto
  obtain ⟨s, hs, hinput⟩ := h.exists_location hq
  have hs' := (Path.location?_congr (unmarked_copyOf m c) _).symm.trans
    (Path.location?_of_place? hplace)
  have hnot : ¬ s <+: outer := by
    intro hinside
    by_cases hname : q.2.name = q'.2.name
    · rw [hname, hs'] at hs
      obtain rfl := Option.some.inj hs
      exact absurd hinside.length_le (by simp)
    · have hapart := h.apart_of_ne (Field.of_mem_requests hq).1 (Field.of_mem_requests hq').1
        hname hs hs'
      exact hapart.1 (hinside.trans (List.prefix_append ..))
  have hne : s ≠ [] := fun heq => hnot (heq ▸ List.nil_prefix)
  have hlt := Value.count_marks_lt_of_at? (hinput hne) haround hp hnot
  exact List.count_eq_zero.mp (by omega)

/-- The fields of a copy of the criteria are spread over it. -/
theorem spread (h : m.Updates c) (hcontent : ∀ q ∈ Field.requests m.transforms c,
      (q.2.transform.apply q.2.input c).map Value.unmarked = .ok (content q.1)) :
    Field.Spread m.transforms (m.copyOf c) content where
  names := h.names
  once := fun p ⟨q, hq, hinto⟩ => h.once _ (Field.of_mem_requests hq).1 p hinto
  apart := fun {q q'} hq hq' hne s hs s' hs' => by
    have hlocation : ∀ {name s}, Path.place? name (m.copyOf c) = some s →
        Path.location? name c = some s := fun hplace =>
      (Path.location?_congr (unmarked_copyOf m c) _).symm.trans (Path.location?_of_place? hplace)
    exact h.apart_of_ne (Field.of_mem_requests hq).1 (Field.of_mem_requests hq').1 hne
      (hlocation hs) (hlocation hs')
  outside := fun hq hq' _ _ hinto => h.not_mem_marks hq' hq hinto
  answers := fun q hq criteria => by
    obtain ⟨q', hq', hkey, htransform, hinput⟩ :=
      Field.exists_request_of_unmarked_eq (unmarked_copyOf m c) hq
    obtain ⟨he, hresolve, -⟩ := Field.of_mem_requests hq
    have hanswer := hcontent q' hq'
    rw [htransform, h.ofValue _ he _ _ c criteria hinput, hkey] at hanswer
    obtain ⟨a, ha, hholds⟩ := Except.map_eq_ok_iff.mp hanswer
    refine ⟨a, ha, hholds, fun n hn => ?_⟩
    rcases h.containers _ he _ _ _ ha n hn with hn | hold
    · refine ⟨⟨n, Path.mem_marks_of_resolve hresolve hn, Nat.le_refl n⟩, ?_⟩
      rintro ⟨q', hq', hinto⟩
      exact h.not_mem_marks hq hq' hinto hn
    · -- The criteria are an object, and their copy is newer than what was there before.
      have hnew := (Value.marks_copied m.nextMark c).2
      obtain ⟨mark, fields, rfl⟩ := h.object
      have hroot : ∃ p, (m.copyOf (.object mark fields)).mark = some p := ⟨_, rfl⟩
      obtain ⟨p, hp⟩ := hroot
      have hmem := Value.mem_marks_of_mark hp
      refine ⟨⟨p, hmem, Nat.le_trans (Nat.le_of_lt hold) (hnew p hmem).1⟩, ?_⟩
      rintro ⟨q', -, hinto⟩
      exact absurd (hnew n hinto.mem_marks).1 (Nat.not_le.mpr hold)

end Updates

/-! ## What comes of a call -/

/-- Where no path leads anywhere, nothing leads anywhere; else some path is not read. -/
theorem leadsSomewhere_cases (c : Value) : ∀ names : List String,
    (leadsSomewhere c names = .ok true) ∨
      (leadsSomewhere c names = .ok false ∧ ∀ name ∈ names, Path.resolve name c = .ok none) ∨
      ∃ name ∈ names, ∃ f, Path.resolve name c = .error f
  | [] => .inr (.inl ⟨rfl, List.forall_mem_nil _⟩)
  | name :: rest => by
    rw [leadsSomewhere]
    rcases hresolve : Path.resolve name c with f | (_ | v)
    · exact .inr (.inr ⟨name, List.mem_cons_self .., f, hresolve⟩)
    · rcases leadsSomewhere_cases c rest with h | ⟨h, hnone⟩ | ⟨name', hname', f, hf⟩
      · exact .inl h
      · exact .inr (.inl ⟨h, List.forall_mem_cons.mpr ⟨hresolve, hnone⟩⟩)
      · exact .inr (.inr ⟨name', List.mem_cons_of_mem _ hname', f, hf⟩)
    · exact .inl rfl

/-- A fault of looking up fields, all of whose paths are read, is met where a value is written out. -/
theorem plain_of_fault? {transforms : List (String × Transform)} {f : Fault}
    (hresolves : ∀ e ∈ transforms, ∃ found, Path.resolve e.1 c = .ok found)
    (h : Field.fault? transforms c = some f) :
    ∃ e ∈ transforms, ∃ v, Path.resolve e.1 c = .ok (some v) ∧ v.plain = .error f := by
  obtain ⟨e, he, hfault⟩ := List.exists_of_findSome?_eq_some h
  obtain ⟨found, hfound⟩ := hresolves e he
  rw [Field.lookUp?, hfound] at hfault
  cases found with
  | none => cases hfault
  | some v =>
    refine ⟨e, he, v, hfound, ?_⟩
    dsimp only at hfault
    rw [cacheKey] at hfault
    cases hplain : v.plain with
    | ok s => rw [hplain] at hfault; cases hfault
    | error f' => rw [hplain] at hfault; exact congrArg Except.error (Option.some.inj hfault)

/-- Where all fields are found, what their keys stand for is what the transforms answer. -/
theorem answered_eq_updated (hcontent : ∀ q ∈ Field.requests m.transforms c,
      (q.2.transform.apply q.2.input c).map Value.unmarked = .ok (content q.1))
    (hresolves : ∀ e ∈ m.transforms, ∃ found, Path.resolve e.1 c = .ok found)
    (hfault : Field.fault? m.transforms c = none) :
    Field.answered m.transforms content c = m.updated c := by
  have hanswers : (Field.requests m.transforms c).map (fun q => (q.1.1, content q.1)) =
      m.transforms.filterMap (answer? c) := by
    rw [Field.requests, List.map_filterMap]
    refine List.filterMap_congr fun e he => ?_
    have hfound := List.findSome?_eq_none_iff.mp hfault e he
    obtain ⟨found, hresolve⟩ := hresolves e he
    rw [Field.lookUp?, hresolve] at hfound
    rw [answer?, Field.lookUp?, hresolve]
    cases found with
    | none => rfl
    | some v =>
      dsimp only at hfound ⊢
      cases hkey : cacheKey e.1 v with
      | error f => rw [hkey] at hfound; cases hfound
      | ok key =>
        have hq : (key, ⟨e.1, e.2, v⟩) ∈ Field.requests m.transforms c :=
          List.mem_filterMap.mpr ⟨e, he, by rw [Field.lookUp?, hresolve]; dsimp only; rw [hkey]; rfl⟩
        obtain ⟨a, ha, hholds⟩ := Except.map_eq_ok_iff.mp (hcontent _ hq)
        have hname := (Field.of_mem_requests hq).2.2
        dsimp only at ha hholds hname
        rw [ha, Except.map, Option.map_some, hname, ← hholds]
        rfl
  rw [Field.answered, hanswers, updated]

/-- Where nothing leads anywhere, nothing changes. -/
theorem updated_of_resolve_none (h : ∀ name ∈ m.names, Path.resolve name c = .ok none) :
    m.updated c = c.unmarked := by
  have hnone : m.transforms.filterMap (answer? c) = [] := List.filterMap_eq_nil_iff.mpr fun e he => by
    rw [answer?, h e.1 (List.mem_map_of_mem he)]
  rw [updated, hnone]
  rfl

theorem answer?_eq_some {e : String × Transform} {x : String × Value} (h : answer? c e = some x) :
    x.1 = e.1 ∧ ∃ v a, Path.resolve e.1 c = .ok (some v) ∧ e.2.apply v c = .ok a ∧
      x.2 = a.unmarked := by
  unfold answer? at h
  split at h
  · next v hv =>
    obtain ⟨a, ha, rfl⟩ := Option.map_eq_some_iff.mp h
    refine ⟨rfl, v, a, hv, ?_, rfl⟩
    cases happly : e.2.apply v c with
    | error f => rw [happly] at ha; cases ha
    | ok a' => rw [happly] at ha; rw [Option.some.inj ha]
  · cases h

theorem unmarked_updated (m : Mutator) (c : Value) : (m.updated c).unmarked = m.updated c := by
  have hself := Value.remarks_unmarked.unmarked_eq
  have hanswers : (m.transforms.filterMap (answer? c)).map (fun e => (e.1, e.2.unmarked)) =
      m.transforms.filterMap (answer? c) := by
    refine (List.map_congr_left fun e he => ?_).trans (List.map_id _)
    obtain ⟨t, -, ht⟩ := List.mem_filterMap.mp he
    obtain ⟨-, v, a, -, -, heq⟩ := answer?_eq_some ht
    exact Prod.ext rfl (heq ▸ hself a)
  rw [updated, Value.unmarked_putEach, hanswers, hself]

/-- A call comes to the answers that the transforms give, whatever the desk does in between. -/
theorem Updates.exists_mutate_eq_answered (h : m.Updates c) : ∃ content : CacheKey → Value,
    (∀ q ∈ Field.requests m.transforms c,
      (q.2.transform.apply q.2.input c).map Value.unmarked = .ok (content q.1)) ∧
    (m.mutate c).1 = m.answered content c := by
  obtain ⟨mark, fields, hobject⟩ := h.object
  have hsingle : ∀ mark items, c ≠ .list mark items := fun _ _ heq => by
    cases hobject.symm.trans heq
  have hagree : m.Agree c c := fun q hq q' hq' hkey => by
    have hname : q.2.name = q'.2.name := by
      rw [← (Field.of_mem_requests hq).2.2, ← (Field.of_mem_requests hq').2.2, hkey]
    rw [Field.eq_of_name h.names hq hq' hname]
  have hsucceeds : ∀ q ∈ Field.requests m.transforms c,
      ∃ a, q.2.transform.apply q.2.input c = .ok a := fun q hq =>
    h.succeeds _ (Field.of_mem_requests hq).1 _ (Field.of_mem_requests hq).2.1
  have hagrees : ∀ d ∈ [c], ∀ d' ∈ [c], m.Agree d d' :=
    List.forall_mem_singleton.mpr (List.forall_mem_singleton.mpr hagree)
  obtain ⟨content, hcontents⟩ := exists_content (List.forall_mem_singleton.mpr hsucceeds) hagrees
  have hcontent := List.forall_mem_singleton.mp hcontents
  have hspread := h.spread hcontent
  have hrecalls : m.Recalls content := by
    rw [Recalls, h.cache]
    exact List.forall_mem_nil _
  refine ⟨content, hcontent, mutate_of_onCourse hsingle hspread fun hneeds => ?_⟩
  rw [landed, looked, opened_of_needsCopy hsingle hneeds]
  exact hspread.finish_lookUpAll (hrecalls.onCourse c) rfl rfl h.cache m.caching

/-- **A call comes to its criteria with all fields changed**, or to the first fault of looking up a
field. -/
theorem Updates.mutate_eq (h : m.Updates c) : (m.mutate c).1.map (fun r => r.value.unmarked) =
    match Field.fault? m.transforms c with
    | some f => .error f
    | none => .ok (m.updated c) := by
  obtain ⟨content, hcontent, hmutate⟩ := h.exists_mutate_eq_answered
  have hneeds : m.needsCopy c = leadsSomewhere c m.names := by
    obtain ⟨mark, fields, hobject⟩ := h.object
    rw [hobject]
    rfl
  have hfields := answered_eq_updated hcontent h.resolves
  rw [hmutate, answered, hneeds]
  rcases leadsSomewhere_cases c m.names with hsome | ⟨hnot, hnone⟩ | ⟨name, hname, f, hf⟩
  · rw [hsome]
    dsimp only
    cases hfault : Field.fault? m.transforms c with
    | some f => rfl
    | none =>
      rw [hfields hfault]
      exact congrArg Except.ok (unmarked_updated m c)
  · rw [hnot]
    have hfault : Field.fault? m.transforms c = none :=
      List.findSome?_eq_none_iff.mpr fun e he => by
        rw [Field.lookUp?, hnone e.1 (List.mem_map_of_mem he)]
    rw [hfault, updated_of_resolve_none hnone]
    rfl
  · obtain ⟨e, he, rfl⟩ := List.mem_map.mp hname
    obtain ⟨found, hfound⟩ := h.resolves e he
    cases hfound.symm.trans hf

/-- The answers are put into places apart. -/
theorem Updates.pairwise_answers (h : m.Updates c) :
    (m.transforms.filterMap (answer? c)).Pairwise fun e e' =>
      ∀ s ∈ Path.place? e.1 c, ∀ s' ∈ Path.place? e'.1 c, s.Apart s' := by
  refine List.pairwise_filterMap.mpr (h.apart.imp fun happart x hx x' hx' s hs s' hs' => ?_)
  rw [(answer?_eq_some hx).1] at hs
  rw [(answer?_eq_some hx').1] at hs'
  exact happart s (Path.location?_of_place? hs) s' (Path.location?_of_place? hs')

/-- What criteria become does not depend on the order of the transforms, or on how often they pause. -/
theorem Updates.updated_congr (h : m.Updates c) {m' : Mutator}
    (hsame : (m'.transforms.map fun e => (e.1, e.2.apply)).Perm
      (m.transforms.map fun e => (e.1, e.2.apply))) : m'.updated c = m.updated c := by
  have hanswers := hsame.filterMap fun e => answer? c (e.1, ⟨0, e.2⟩)
  rw [List.filterMap_map, List.filterMap_map] at hanswers
  exact (Value.putEach_perm hanswers.symm h.pairwise_answers _).symm

/-- A call gives the criteria with all fields changed, or a value cannot be written as text. -/
theorem Updates.mutate_cases (h : m.Updates c) :
    (∃ r, (m.mutate c).1 = .ok r ∧ r.value.unmarked = m.updated c ∧
      ∀ e ∈ m.transforms, ∀ v, Path.resolve e.1 c = .ok (some v) → ∃ text, v.plain = .ok text) ∨
    ∃ f, (m.mutate c).1 = .error f ∧ ∃ e ∈ m.transforms, ∃ v,
      Path.resolve e.1 c = .ok (some v) ∧ v.plain = .error f ∧ v.HoldsLong f := by
  have hmutate := h.mutate_eq
  cases hfault : Field.fault? m.transforms c with
  | some f =>
    rw [hfault] at hmutate
    obtain ⟨e, he, v, hv, hplain⟩ := plain_of_fault? h.resolves hfault
    exact .inr ⟨f, Except.map_eq_error_iff.mp hmutate, e, he, v, hv, hplain,
      Value.stopsOnly_plain v f hplain⟩
  | none =>
    rw [hfault] at hmutate
    obtain ⟨r, hr, heq⟩ := Except.map_eq_ok_iff.mp hmutate
    refine .inl ⟨r, hr, heq, fun e he v hv => ?_⟩
    have hfound := List.findSome?_eq_none_iff.mp hfault e he
    rw [Field.lookUp?, hv] at hfound
    cases hplain : v.plain with
    | ok text => exact ⟨text, rfl⟩
    | error f =>
      dsimp only at hfound
      rw [cacheKey, hplain] at hfound
      cases hfound

/-- In the place of a field there is the answer to its value. -/
theorem Updates.at?_updated (h : m.Updates c) {e : String × Transform} (he : e ∈ m.transforms)
    {v a : Value} {s : Place} (hv : Path.resolve e.1 c = .ok (some v))
    (hs : Path.place? e.1 c = some s) (ha : e.2.apply v c = .ok a) :
    (m.updated c).at? s = some a.unmarked := by
  have hanswer : answer? c e = some (e.1, a.unmarked) := by
    rw [answer?, hv]
    dsimp only
    rw [ha]
    rfl
  obtain ⟨inner, hinner⟩ := Path.exists_at?_of_place? hs
  have hthere : c.unmarked.at? s = some inner.unmarked := by
    rw [Value.remarks_unmarked.at?, hinner]
    rfl
  exact Value.at?_putEach_of_mem h.pairwise_answers (List.mem_filterMap.mpr ⟨e, he, hanswer⟩) hs
    hthere

/-- In places apart from those of all fields there is what was there. -/
theorem at?_updated_of_apart {s : Place}
    (hs : ∀ e ∈ m.transforms, ∀ s' ∈ Path.place? e.1 c, s.Apart s') :
    (m.updated c).at? s = c.unmarked.at? s := by
  refine Value.at?_putEach_of_apart (fun x hx t ht => ?_) _
  obtain ⟨e, he, hanswer⟩ := List.mem_filterMap.mp hx
  rw [(answer?_eq_some hanswer).1] at ht
  exact hs e he t ht

end Mutator

end Verdict
