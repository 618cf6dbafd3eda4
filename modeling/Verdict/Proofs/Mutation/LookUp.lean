import Verdict.Proofs.Mutation.Account
import Verdict.Proofs.Mutation.Runs

/-!
# Proofs/Mutation/LookUp — which look-ups wait for which runs

    look-up of a field ──▸ kept result, put in at once
                      └──▸ run of the key ◂── later look-ups of the key

All look-ups come before anything is applied.  A look-up whose key is kept starts nothing; any other one
starts the run of its key, or waits for it.  So runs have keys of their own, under which nothing is kept
(`Desk.Started`), and each look-up that waits is among the copies of the run of its key
(`Desk.waits_lookUpAll`).
-/

namespace Verdict

/-- The look-up of the field of a transform in a copy. -/
abbrev Desk.LookUp := Nat × String × Transform

/-- Which copies wait for which keys. -/
def Run.waits (runs : List Run) : List (Nat × CacheKey) :=
  runs.flatMap fun r => r.copies.map fun i => (i, r.key)

theorem Run.waits_append (runs runs' : List Run) : waits (runs ++ runs') = waits runs ++ waits runs' :=
  List.flatMap_append

/-- **A request adds its copy to those that wait for its key.** -/
theorem Run.waits_enroll (i : Nat) (q : CacheKey × Field) (runs : List Run) :
    (waits (Desk.enroll i q runs)).Perm (waits runs ++ [(i, q.1)]) := by
  rcases Desk.enroll_cases i q runs with ⟨-, heq⟩ | ⟨before, r, after, rfl, -, hkey, heq⟩ <;> rw [heq]
  · rw [waits_append]
    exact .refl _
  · have hafter : waits (r :: after) = r.copies.map (fun j => (j, r.key)) ++ waits after := rfl
    have hjoined : waits ({ r with copies := r.copies ++ [i] } :: after) =
        r.copies.map (fun j => (j, r.key)) ++ ([(i, q.1)] ++ waits after) := by
      simp [waits, hkey]
    rw [waits_append, waits_append, hafter, hjoined, List.append_assoc, List.append_assoc]
    exact .append_left _ (.append_left _ List.perm_append_comm)

namespace Desk

variable {d : Desk} {q : LookUp} {transforms : List (String × Transform)}

/-- All look-ups of the fields of copies, copy by copy. -/
def lookUps (transforms : List (String × Transform)) (d : Desk) : List LookUp :=
  (List.range d.copies.length).flatMap fun i => transforms.map (Prod.mk i)

/-- Do a look-up. -/
def ask (d : Desk) (q : LookUp) : Desk := d.lookUp q.1 q.2.1 q.2.2

theorem lookUpAll_eq_foldl (transforms : List (String × Transform)) (d : Desk) :
    d.lookUpAll transforms = (d.lookUps transforms).foldl ask d := by
  rw [lookUpAll, lookUps, List.foldl_flatMap]
  simp only [List.foldl_map]
  rfl

/-- What a look-up finds, with its key; none where there is no such field. -/
def found (d : Desk) (q : LookUp) : Except Fault (Option (CacheKey × Field)) :=
  match d.copies[q.1]? with
  | none => .ok none
  | some c => Field.lookUp? c.value q.2

/-- What a look-up waits for: the key of a field that no result is kept for. -/
def waits? (d : Desk) (q : LookUp) : Option (Nat × CacheKey) :=
  match d.found q with
  | .ok (some (key, _)) => if Entries.has key d.cache then none else some (q.1, key)
  | _ => none

/-- **What a look-up can do**: find no field or a fault, or a field whose result is kept and put in, or
one that waits for the run of its key. -/
theorem ask_cases (d : Desk) (q : LookUp) :
    (d.waits? q = none ∧ ∃ faults, d.ask q = { d with faults := faults } ∧
      (d.found q = .ok none ∧ faults = d.faults ∨
        ∃ c f, d.copies[q.1]? = some c ∧ d.found q = .error f ∧
          faults = withFault d.faults (c.call, f))) ∨
    (d.waits? q = none ∧ ∃ key f kept, d.found q = .ok (some (key, f)) ∧
      Entries.find? key d.cache = some kept ∧ d.ask q = d.put q.1 q.2.1 kept) ∨
    (∃ key f, d.waits? q = some (q.1, key) ∧ d.found q = .ok (some (key, f)) ∧
      Entries.find? key d.cache = none ∧
      d.ask q = { d with runs := enroll q.1 (key, f) d.runs }) := by
  rw [ask, lookUp, waits?, found]
  cases hcopy : d.copies[q.1]? with
  | none => exact .inl ⟨rfl, d.faults, rfl, .inl ⟨rfl, rfl⟩⟩
  | some c =>
    dsimp only
    rw [Field.lookUp?]
    cases Path.resolve q.2.1 c.value with
    | error f => exact .inl ⟨rfl, _, fail_eq d c.call f, .inr ⟨c, f, rfl, rfl, rfl⟩⟩
    | ok place =>
      cases place with
      | none => exact .inl ⟨rfl, d.faults, rfl, .inl ⟨rfl, rfl⟩⟩
      | some v =>
        dsimp only
        cases cacheKey q.2.1 v with
        | error f => exact .inl ⟨rfl, _, fail_eq d c.call f, .inr ⟨c, f, rfl, rfl, rfl⟩⟩
        | ok key =>
          dsimp only [Except.map]
          cases hkept : Entries.find? key d.cache with
          | some kept =>
            have hhas : Entries.has key d.cache = true := Option.isSome_of_eq_some hkept
            rw [if_pos hhas]
            exact .inr (.inl ⟨rfl, key, _, kept, rfl, hkept, rfl⟩)
          | none =>
            have hhas : ¬ Entries.has key d.cache = true := by
              rw [Entries.has, hkept]
              exact Bool.false_ne_true
            rw [if_neg hhas]
            refine .inr (.inr ⟨key, ⟨q.2.1, q.2.2, v⟩, rfl, rfl, hkept, ?_⟩)
            rw [enroll]
            dsimp only
            cases join? q.1 key d.runs <;> rfl

/-- A field that is found is of the transform that was asked for, and there is a copy with it. -/
theorem of_found {key : CacheKey} {f : Field} (h : d.found q = .ok (some (key, f))) :
    q.1 < d.copies.length ∧ key.1 = q.2.1 ∧ f.transform = q.2.2 := by
  rw [found] at h
  split at h
  · cases h
  · next c hc =>
    refine ⟨(List.getElem?_eq_some_iff.mp hc).1, ?_⟩
    rw [Field.lookUp?] at h
    split at h
    · cases h
    · cases h
    · next v _ =>
      rw [cacheKey] at h
      cases hplain : v.plain with
      | error f => rw [hplain] at h; cases h
      | ok s =>
        rw [hplain] at h
        cases h
        exact ⟨rfl, rfl⟩

/-- Runs that look-ups have started, and what is kept while they do. -/
structure Started (transforms : List (String × Transform)) (kept : List CacheKey) (d : Desk) :
    Prop where
  fresh : d.IsFresh
  keys : (d.runs.map Run.key).Nodup
  cache : d.cache.map Prod.fst = kept
  unkept : ∀ r ∈ d.runs, r.key ∉ kept
  registered : ∀ r ∈ d.runs, (r.key.1, r.transform) ∈ transforms
  waiting : ∀ r ∈ d.runs, ∀ i ∈ r.copies, i < d.copies.length

variable {kept : List CacheKey}

theorem Started.later {d' : Desk} (h : d.Started transforms kept) (hlater : d.IsLater d') :
    d'.Started transforms kept := by
  obtain ⟨⟨f, -, hruns, hcache⟩, hcalls⟩ := hlater
  have hlength := length_copies_of_calls hcalls
  have hmap {P : Run → Prop} (hP : ∀ r ∈ d.runs, P (r.through f)) : ∀ r' ∈ d'.runs, P r' := by
    rw [hruns]
    rintro r' hr'
    obtain ⟨r, hr, rfl⟩ := List.mem_map.mp hr'
    exact hP r hr
  constructor
  case fresh => exact hmap fun r hr => by rw [Run.through, h.fresh r hr, Option.map_none]
  case keys =>
    rw [hruns, List.map_map]
    exact h.keys
  case cache =>
    rw [hcache, List.map_map]
    exact h.cache
  case unkept => exact hmap h.unkept
  case registered => exact hmap h.registered
  case waiting =>
    rw [hlength]
    exact hmap h.waiting

theorem Started.enroll (h : d.Started transforms kept) {i : Nat} {key : CacheKey} {f : Field}
    (hi : i < d.copies.length) (hkey : key ∉ kept) (hregistered : (key.1, f.transform) ∈ transforms) :
    Started transforms kept { d with runs := Desk.enroll i (key, f) d.runs } := by
  rcases enroll_cases i (key, f) d.runs with ⟨hnew, heq⟩ | ⟨before, r, after, hruns, -, hrkey, heq⟩ <;>
    rw [heq]
  · have happend {P : Run → Prop} (hP : ∀ r ∈ d.runs, P r) (hlast : P ⟨key, f.transform, [i], f.input, none⟩) :
        ∀ r ∈ d.runs ++ [⟨key, f.transform, [i], f.input, none⟩], P r := fun r hr =>
      (List.mem_append.mp hr).elim (hP r) fun hr => List.mem_singleton.mp hr ▸ hlast
    refine ⟨happend h.fresh rfl, ?_, h.cache, happend h.unkept hkey, happend h.registered hregistered,
      happend h.waiting fun j hj => List.mem_singleton.mp hj ▸ hi⟩
    rw [List.map_append, List.nodup_append]
    refine ⟨h.keys, List.nodup_singleton _, fun k hk k' hk' => ?_⟩
    obtain ⟨r, hr, rfl⟩ := List.mem_map.mp hk
    obtain rfl := List.mem_singleton.mp hk'
    exact hnew r hr
  · have hold := h
    obtain ⟨hfresh, hkeys, -, hunkept, hregistered', hwaiting⟩ := hold
    have hjoin {P : Run → Prop} (hP : ∀ r ∈ d.runs, P r)
        (hr : P r → P { r with copies := r.copies ++ [i] }) :
        ∀ r' ∈ before ++ { r with copies := r.copies ++ [i] } :: after, P r' := by
      rw [hruns] at hP
      intro r' hr'
      rcases List.mem_append.mp hr' with hr' | hr'
      · exact hP r' (List.mem_append_left _ hr')
      · rcases List.mem_cons.mp hr' with rfl | hr'
        · exact hr (hP r (by simp))
        · exact hP r' (List.mem_append_right _ (List.mem_cons_of_mem _ hr'))
    refine ⟨hjoin hfresh id, ?_, h.cache, hjoin hunkept id, hjoin hregistered' id,
      hjoin hwaiting fun hr j hj => ?_⟩
    · rw [hruns, List.map_append, List.map_cons] at hkeys
      rwa [List.map_append, List.map_cons]
    · rcases List.mem_append.mp hj with hj | hj
      · exact hr j hj
      · exact List.mem_singleton.mp hj ▸ hi

/-- **A look-up of a registered transform keeps that.** -/
theorem Started.ask (h : d.Started transforms kept) (hq : q.2 ∈ transforms) :
    (d.ask q).Started transforms kept := by
  rcases ask_cases d q with ⟨-, faults, heq, -⟩ | ⟨-, -, -, _, -, -, heq⟩ |
    ⟨key, f, -, hfound, hunkept, heq⟩
  · rw [heq]
    exact ⟨h.fresh, h.keys, h.cache, h.unkept, h.registered, h.waiting⟩
  · rw [heq]
    exact h.later (isLater_put ..).1
  · obtain ⟨hlt, hname, htransform⟩ := of_found hfound
    rw [heq]
    refine h.enroll hlt ?_ (by rwa [hname, htransform])
    rw [← h.cache]
    exact Entries.find?_eq_none_iff.mp hunkept

theorem mem_transforms_of_mem_lookUps (hq : q ∈ d.lookUps transforms) : q.2 ∈ transforms := by
  obtain ⟨i, -, hq⟩ := List.mem_flatMap.mp hq
  obtain ⟨e, he, rfl⟩ := List.mem_map.mp hq
  exact he

/-- All look-ups, each with the desk that it is done on. -/
def search (transforms : List (String × Transform)) (d : Desk) : List (Desk × LookUp) :=
  trace ask d (d.lookUps transforms)

/-- **All runs are started by look-ups**, on each desk on the way and at the end. -/
theorem started_lookUpAll (h : d.runs = []) (transforms : List (String × Transform)) :
    (∀ s ∈ d.search transforms, s.1.Started transforms (d.cache.map Prod.fst)) ∧
      (d.lookUpAll transforms).Started transforms (d.cache.map Prod.fst) := by
  have hnone {P : Run → Prop} : ∀ r ∈ d.runs, P r := h ▸ List.forall_mem_nil _
  rw [lookUpAll_eq_foldl]
  refine invariant ⟨hnone, h ▸ List.nodup_nil, rfl, hnone, hnone, hnone⟩ fun s hs hs' => ?_
  obtain ⟨before, after, hlookUps, -⟩ := mem_trace hs
  exact hs'.ask (mem_transforms_of_mem_lookUps (d := d) (by simp [hlookUps]))

/-- **Those that wait for runs are the look-ups that found nothing kept.** -/
theorem waits_lookUpAll (h : d.runs = []) (transforms : List (String × Transform)) :
    (Run.waits (d.lookUpAll transforms).runs).Perm
      ((d.search transforms).filterMap fun s => s.1.waits? s.2) := by
  suffices hall : ∀ (l : List LookUp) (d : Desk), (Run.waits (l.foldl ask d).runs).Perm
      (Run.waits d.runs ++ (trace ask d l).filterMap fun s => s.1.waits? s.2) by
    have hsearch := hall (d.lookUps transforms) d
    rwa [h, ← lookUpAll_eq_foldl] at hsearch
  intro l
  induction l with
  | nil => exact fun d => by rw [trace, List.filterMap_nil, List.append_nil, List.foldl_nil]
  | cons q rest ih =>
    intro d
    have hstep : (Run.waits (d.ask q).runs).Perm (Run.waits d.runs ++ (d.waits? q).toList) := by
      rcases ask_cases d q with ⟨hwaits, faults, heq, -⟩ | ⟨hwaits, -, -, kept, -, -, heq⟩ |
        ⟨key, f, hwaits, -, -, heq⟩ <;> rw [heq, hwaits]
      · rw [Option.toList_none, List.append_nil]
      · obtain ⟨⟨⟨f, -, hruns, -⟩, -⟩, -⟩ := isLater_put d q.1 q.2.1 kept
        rw [hruns, Option.toList_none, List.append_nil, Run.waits, List.flatMap_map]
        exact .refl _
      · exact Run.waits_enroll ..
    refine (ih (d.ask q)).trans ((hstep.append_right _).trans (.of_eq ?_))
    rw [trace, List.filterMap_cons, List.append_assoc]
    cases d.waits? q <;> rfl

/-- **Look-ups leave kept results accounted for.** -/
theorem keptFrom_lookUpAll {known : Application → Prop} (h : d.KeptFrom known)
    (transforms : List (String × Transform)) : (d.lookUpAll transforms).KeptFrom known := by
  rw [lookUpAll_eq_foldl]
  refine (invariant h fun s _ hs => ?_).2
  rcases ask_cases s.1 s.2 with ⟨-, faults, heq, -⟩ | ⟨-, -, -, kept, -, -, heq⟩ |
    ⟨key, f, -, -, -, heq⟩ <;> rw [heq]
  · exact hs
  · exact hs.later (isLater_put ..).1
  · exact hs

theorem calls_lookUpAll (transforms : List (String × Transform)) (d : Desk) :
    (d.lookUpAll transforms).copies.map WorkingCopy.call = d.copies.map WorkingCopy.call := by
  rw [lookUpAll_eq_foldl]
  refine (invariant (P := fun d' => d'.copies.map WorkingCopy.call = d.copies.map WorkingCopy.call)
    rfl fun s _ hs => ?_).2
  rcases ask_cases s.1 s.2 with ⟨-, faults, heq, -⟩ | ⟨-, -, -, kept, -, -, heq⟩ |
    ⟨key, f, -, -, -, heq⟩ <;> rw [heq]
  · exact hs
  · exact (isLater_put ..).1.calls.trans hs
  · exact hs

end Desk

end Verdict
