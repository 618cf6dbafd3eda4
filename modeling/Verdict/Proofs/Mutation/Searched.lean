import Mathlib.Data.List.Count
import Verdict.Proofs.Mutation.Reflected

/-!
# Proofs/Mutation/Searched — the look-ups of copies, and of those that mirror them

    copies of d ──look up──▸ runs ◂──wait── copies beside d
         └───────── mirrored by ───────────────┘

All look-ups of the copies of a desk come first, and start the runs (`Desk.IsOwned.search`).  Copies beside
the desk that mirror them then look up the same fields, find the same results kept, and wait for the same
runs (`Desk.Reflects.lookUpAll`).
-/

namespace Verdict

namespace Desk

open Verdict.Field

/-- The look-ups of the first copies, copy by copy. -/
def firstLookUps (ts : List (String × Transform)) (n : Nat) : List LookUp :=
  (List.range n).flatMap fun i => ts.map (Prod.mk i)

/-- A desk after the look-ups of its first copies: each of them is what it comes to by itself. -/
structure HasSearched (own : Nat → Nat → Prop) (kept : List Nat) (ts : List (String × Transform))
    (n : Nat) (d d' : Desk) : Prop where
  owned : d'.IsOwned own kept
  held : d'.held kept = d.held kept
  cache : d'.cache = d.cache
  nextMark : d'.nextMark = d.nextMark
  calls : d'.copies.map WorkingCopy.call = d.copies.map WorkingCopy.call
  copies {i : Nat} {c : WorkingCopy} : d.copies[i]? = some c → d'.copies[i]? =
    some { c with value := if i < n then (browse d.cache c.value ts).1 else c.value }
  waits {i : Nat} {c : WorkingCopy} : i < n → d.copies[i]? = some c → ∀ key,
    (Run.waits d'.runs).count (i, key) = (keysOf (browse d.cache c.value ts).2).count key
  unasked {i : Nat} : n ≤ i → ∀ key, (i, key) ∉ Run.waits d'.runs
  faults : Entries.find? 0 d'.faults = none → d'.faults = d.faults ∧ ∀ {i : Nat} {c : WorkingCopy},
    i < n → d.copies[i]? = some c → faultsOf (browse d.cache c.value ts).2 = []
  apart {i : Nat} {c : WorkingCopy} : i < n → d.copies[i]? = some c →
    BrowsesIn (fun p => own i p ∧ p ∉ d.held kept) d.cache c.value ts

variable {own : Nat → Nat → Prop} {kept : List Nat} {ts : List (String × Transform)} {d d₁ d₂ : Desk}
  {n : Nat} {c : WorkingCopy}

theorem firstLookUps_succ (ts : List (String × Transform)) (n : Nat) :
    firstLookUps ts (n + 1) = firstLookUps ts n ++ ts.map (Prod.mk n) := by
  rw [firstLookUps, firstLookUps, List.range_succ, List.flatMap_append, List.flatMap_singleton]

/-- The look-ups of a copy let it wait for the keys that it asks for, and no other copy for any. -/
theorem HasBrowsed.count_waits (h : HasBrowsed own kept n ts d c d₁) (i : Nat) (key : CacheKey) :
    (Run.waits d₁.runs).count (i, key) = (Run.waits d.runs).count (i, key) +
      if i = n then (keysOf (browse d.cache c.value ts).2).count key else 0 := by
  rw [h.waits.count_eq, List.count_append]
  split
  · next hi => rw [hi, List.count_map_of_injective _ _ (fun a b hab => (Prod.mk.inj hab).2)]
  · next hi =>
    refine congrArg _ (List.count_eq_zero.mpr fun hmem => ?_)
    obtain ⟨key', -, heq⟩ := List.mem_map.mp hmem
    exact hi (congrArg Prod.fst heq).symm

/-- They have no fault if their call has none. -/
theorem HasBrowsed.faultless (h : HasBrowsed own kept n ts d c d₁)
    (hnone : Entries.find? c.call d₁.faults = none) :
    Entries.find? c.call d.faults = none ∧ d₁.faults = d.faults ∧
      faultsOf (browse d.cache c.value ts).2 = [] := by
  have hfaults := h.faults
  rw [hfaults, find?_foldl_withFault, Option.or_eq_none_iff] at hnone
  cases hfs : faultsOf (browse d.cache c.value ts).2 with
  | nil => exact ⟨hnone.1, by rw [hfaults, hfs]; rfl, rfl⟩
  | cons f rest =>
    rw [hfs, List.map_cons, Entries.find?_cons, if_pos rfl] at hnone
    cases hnone.2

/-- The look-ups of one more copy. -/
theorem HasSearched.succ (h : HasSearched own kept ts n d d₁) (hcalls : ∀ c ∈ d.copies, c.call = 0)
    (hc : d.copies[n]? = some c) (hbrowsed : HasBrowsed own kept n ts d₁ c d₂) :
    HasSearched own kept ts (n + 1) d d₂ := by
  have hcopies := hbrowsed.copies
  have hcount := hbrowsed.count_waits
  have hfaults := hbrowsed.faultless
  have hapart := hbrowsed.apart
  rw [h.cache] at hcopies hcount hfaults hapart
  rw [h.held] at hapart
  rw [hcalls c (List.mem_of_getElem? hc)] at hfaults
  -- A copy that has been searched is one from before, or the new one.
  have hcase : ∀ {i : Nat} {c' : WorkingCopy}, i < n + 1 → d.copies[i]? = some c' →
      i < n ∧ i ≠ n ∨ i = n ∧ c' = c := fun hi hc' => by
    rcases Nat.lt_succ_iff_lt_or_eq.mp hi with hlt | rfl
    · exact .inl ⟨hlt, Nat.ne_of_lt hlt⟩
    · exact .inr ⟨rfl, Option.some.inj (hc'.symm.trans hc)⟩
  constructor
  case owned => exact hbrowsed.owned
  case held => exact hbrowsed.held.trans h.held
  case cache => exact hbrowsed.cache.trans h.cache
  case nextMark => exact hbrowsed.nextMark.trans h.nextMark
  case calls =>
    rw [hcopies, List.map_set, ← h.calls]
    refine set_of_getElem? ?_
    rw [h.calls, List.getElem?_map, hc, Option.map_some]
  case copies =>
    intro i c' hc'
    have hlt : n < d₁.copies.length := (List.getElem?_eq_some_iff.mp (h.copies hc)).1
    rw [hcopies, List.getElem?_set]
    by_cases hi : n = i
    · subst hi
      obtain rfl := Option.some.inj (hc'.symm.trans hc)
      rw [if_pos rfl, if_pos hlt, if_pos (Nat.lt_succ_self n)]
    · have hiff : i < n + 1 ↔ i < n := by omega
      rw [if_neg hi, h.copies hc']
      simp only [hiff]
  case waits =>
    intro i c' hi hc' key
    rcases hcase hi hc' with ⟨hlt, hne⟩ | ⟨rfl, rfl⟩
    · rw [hcount, h.waits hlt hc', if_neg hne, Nat.add_zero]
    · rw [hcount, List.count_eq_zero.mpr (h.unasked (Nat.le_refl _) key), if_pos rfl, Nat.zero_add]
  case unasked =>
    intro i hi key hmem
    have hpos := List.count_pos_iff.mpr hmem
    rw [hcount, List.count_eq_zero.mpr (h.unasked (by omega) key), if_neg (by omega)] at hpos
    exact Nat.lt_irrefl 0 hpos
  case faults =>
    intro hnone
    obtain ⟨hfirst, hlast, hnew⟩ := hfaults hnone
    obtain ⟨hsame, hbefore⟩ := h.faults hfirst
    refine ⟨hlast.trans hsame, fun {i c'} hi hc' => ?_⟩
    rcases hcase hi hc' with ⟨hlt, -⟩ | ⟨rfl, rfl⟩
    · exact hbefore hlt hc'
    · exact hnew
  case apart =>
    intro i c' hi hc'
    rcases hcase hi hc' with ⟨hlt, -⟩ | ⟨rfl, rfl⟩
    · exact h.apart hlt hc'
    · exact hapart

/-- **After the look-ups of its copies, each copy of a desk is what it comes to by itself.** -/
theorem IsOwned.search (h : d.IsOwned own kept) (hown : ∀ {i j n}, own i n → own j n → i = j)
    (hruns : d.runs = []) (hcalls : ∀ c ∈ d.copies, c.call = 0) : ∀ n, n ≤ d.copies.length →
    (∀ s ∈ trace Desk.ask d (firstLookUps ts n), s.1.LooksApart kept s.2) →
    HasSearched own kept ts n d ((firstLookUps ts n).foldl Desk.ask d)
  | 0, _, _ => by
    refine ⟨h, rfl, rfl, rfl, rfl, fun {i c} hc => ?_, fun hi => absurd hi (Nat.not_lt_zero _),
      fun {i} _ key hmem => ?_, fun _ => ⟨rfl, fun hi => absurd hi (Nat.not_lt_zero _)⟩,
      fun hi => absurd hi (Nat.not_lt_zero _)⟩
    · rw [if_neg (Nat.not_lt_zero i)]
      exact hc
    · have hnone : (i, key) ∈ Run.waits d.runs := hmem
      rw [hruns] at hnone
      cases hnone
  | n + 1, hn, htrace => by
    rw [firstLookUps_succ, trace_append, List.forall_mem_append] at htrace
    have hbefore := h.search hown hruns hcalls n (Nat.le_of_succ_le hn) htrace.1
    have hc := List.getElem?_eq_getElem (Nat.lt_of_succ_le hn)
    have hself := hbefore.copies hc
    rw [if_neg (Nat.lt_irrefl n)] at hself
    rw [firstLookUps_succ, List.foldl_append]
    exact hbefore.succ hcalls hc (hbefore.owned.lookUps hown ts hself htrace.2)

/-! ## Copies beside the desk -/

variable {owns : Nat → Nat → Prop} {more : List WorkingCopy} {e : Nat} {x : WorkingCopy}

/-- The look-ups of copies of the desk are done as without the others. -/
theorem firstLookUps_beside (hparted : Parted own owns) (h : d.IsOwned own kept)
    (hmore : AreOwned owns (d.held kept) more) (hruns : d.runs = [])
    (hcalls : ∀ c ∈ d.copies, c.call = 0) : ∀ n, n ≤ d.copies.length →
    (∀ {i : Nat} {c : WorkingCopy}, i < n → d.copies[i]? = some c →
      faultsOf (browse d.cache c.value ts).2 = []) →
    (∀ s ∈ trace ask d (firstLookUps ts n), s.1.LooksApart kept s.2) →
    (firstLookUps ts n).foldl ask (d.beside more fun _ => []) =
      ((firstLookUps ts n).foldl ask d).beside more fun _ => []
  | 0, _, _, _ => rfl
  | n + 1, hn, hfaults, htrace => by
    rw [firstLookUps_succ, trace_append, List.forall_mem_append] at htrace
    have hbefore := h.search hparted.inside hruns hcalls n (Nat.le_of_succ_le hn) htrace.1
    have hc := List.getElem?_eq_getElem (Nat.lt_of_succ_le hn)
    have hself := hbefore.copies hc
    rw [if_neg (Nat.lt_irrefl n)] at hself
    have hbeside := firstLookUps_beside hparted h hmore hruns hcalls n (Nat.le_of_succ_le hn)
      (fun hi => hfaults (Nat.lt_succ_of_lt hi)) htrace.1
    rw [firstLookUps_succ, List.foldl_append, List.foldl_append, hbeside]
    refine lookUps_beside_left hparted ts hbefore.owned (hbefore.held ▸ hmore) hself ?_ htrace.2
    rw [hbefore.cache]
    exact hfaults (Nat.lt_succ_self n) hc

/-- Copies beside a desk after the look-ups of the first of them: each of these is what it comes to by
itself, and waits for the keys that it has asked for. -/
structure HasJoined (owns : Nat → Nat → Prop) (held : List Nat) (ts : List (String × Transform))
    (d : Desk) (more : List WorkingCopy) (n : Nat) (more' : List WorkingCopy)
    (waiting : CacheKey → List Nat) : Prop where
  areOwned : AreOwned owns held more'
  length : more'.length = more.length
  copies {e : Nat} {x : WorkingCopy} : more[e]? = some x → more'[e]? =
    some { x with value := if e < n then (browse d.cache x.value ts).1 else x.value }
  places {key : CacheKey} {i : Nat} : i ∈ waiting key → ∃ e < n, i = d.copies.length + e
  counts {e : Nat} {x : WorkingCopy} : e < n → more[e]? = some x → ∀ key,
    (waiting key).count (d.copies.length + e) = (keysOf (browse d.cache x.value ts).2).count key

/-- The look-ups of one more copy beside the desk. -/
theorem HasJoined.succ {more' : List WorkingCopy} {waiting : CacheKey → List Nat}
    (h : HasJoined owns (d.held kept) ts d more n more' waiting) (howned : d.IsOwned own kept)
    (hx : more[n]? = some x) : HasJoined owns (d.held kept) ts d more (n + 1)
      (more'.set n { x with value := (browse d.cache x.value ts).1 })
      (joined waiting (d.copies.length + n) (keysOf (browse d.cache x.value ts).2)) := by
  have hself := h.copies hx
  rw [if_neg (Nat.lt_irrefl n)] at hself
  have hlt : n < more'.length := (List.getElem?_eq_some_iff.mp hself).1
  refine ⟨h.areOwned.set hself fun p => mem_marks_browse howned.cache ts,
    (List.length_set ..).trans h.length, fun {e x'} hx' => ?_, fun {key i} hi => ?_,
    fun {e x'} he hx' key => ?_⟩
  · rw [List.getElem?_set]
    by_cases he : n = e
    · subst he
      obtain rfl := Option.some.inj (hx'.symm.trans hx)
      rw [if_pos rfl, if_pos hlt, if_pos (Nat.lt_succ_self n)]
    · have hiff : e < n + 1 ↔ e < n := by omega
      rw [if_neg he, h.copies hx']
      simp only [hiff]
  · rcases List.mem_append.mp hi with hi | hi
    · obtain ⟨e, he, rfl⟩ := h.places hi
      exact ⟨e, Nat.lt_succ_of_lt he, rfl⟩
    · exact ⟨n, Nat.lt_succ_self n, (List.mem_replicate.mp hi).2⟩
  · rw [joined, List.count_append, List.count_replicate]
    rcases Nat.lt_succ_iff_lt_or_eq.mp he with hlt | rfl
    · rw [h.counts hlt hx', if_neg (by simp; omega), Nat.add_zero]
    · obtain rfl := Option.some.inj (hx'.symm.trans hx)
      have hnone : (waiting key).count (d.copies.length + e) = 0 :=
        List.count_eq_zero.mpr fun hmem => by
          obtain ⟨e', he', heq⟩ := h.places hmem
          omega
      rw [hnone, if_pos (by simp), Nat.zero_add]

/-- **After their look-ups, copies beside a desk are what they come to by themselves**, and wait for the
runs of the desk. -/
theorem exists_hasJoined (ts : List (String × Transform)) (hparted : Parted own owns)
    (h : d.IsOwned own kept) (hmore : AreOwned owns (d.held kept) more)
    (hheld : ∀ {e p}, owns e p → p ∉ d.held kept) (hkeys : (d.runs.map Run.key).Nodup)
    (hfaults : ∀ (e : Nat) (x : WorkingCopy), more[e]? = some x →
      faultsOf (browse d.cache x.value ts).2 = [])
    (hasked : ∀ (e : Nat) (x : WorkingCopy), more[e]? = some x →
      ∀ key ∈ keysOf (browse d.cache x.value ts).2, key ∈ d.runs.map Run.key)
    (hapart : ∀ (e : Nat) (x : WorkingCopy), more[e]? = some x →
      BrowsesIn (owns e) d.cache x.value ts) :
    ∀ n, n ≤ more.length → ∃ more' waiting, HasJoined owns (d.held kept) ts d more n more' waiting ∧
      ((List.range n).flatMap fun e => ts.map (Prod.mk (d.copies.length + e))).foldl ask
        (d.beside more fun _ => []) = d.beside more' waiting
  | 0, _ => by
    refine ⟨more, fun _ => [], ⟨hmore, rfl, fun {e x} hx => ?_, fun hi => absurd hi List.not_mem_nil,
      fun he => absurd he (Nat.not_lt_zero _)⟩, rfl⟩
    rw [if_neg (Nat.not_lt_zero e)]
    exact hx
  | n + 1, hn => by
    obtain ⟨more', waiting, hjoined, heq⟩ := exists_hasJoined ts hparted h hmore hheld hkeys
      hfaults hasked hapart n (Nat.le_of_succ_le hn)
    have hx := List.getElem?_eq_getElem (Nat.lt_of_succ_le hn)
    have hself := hjoined.copies hx
    rw [if_neg (Nat.lt_irrefl n)] at hself
    refine ⟨_, _, hjoined.succ h hx, ?_⟩
    rw [List.range_succ, List.flatMap_append, List.flatMap_singleton, List.foldl_append, heq]
    exact lookUps_beside_right hparted h hheld hkeys ts hjoined.areOwned hself (hfaults n _ hx)
      (hasked n _ hx) (hapart n _ hx)

/-! ## All look-ups -/

theorem mem_keys_of_mem_waits {runs : List Run} {i : Nat} {key : CacheKey}
    (h : (i, key) ∈ Run.waits runs) : key ∈ runs.map Run.key := by
  obtain ⟨r, hr, hmem⟩ := List.mem_flatMap.mp h
  obtain ⟨_, -, heq⟩ := List.mem_map.mp hmem
  obtain ⟨-, rfl⟩ := Prod.mk.inj heq
  exact List.mem_map_of_mem hr

/-- How often a copy waits for a run. -/
theorem count_copies {runs : List Run} (hkeys : (runs.map Run.key).Nodup) {r : Run} (hr : r ∈ runs)
    (i : Nat) : r.copies.count i = (Run.waits runs).count (i, r.key) := by
  induction runs with
  | nil => cases hr
  | cons r' rest ih =>
    have hwaits : Run.waits (r' :: rest) = (r'.copies.map fun i => (i, r'.key)) ++ Run.waits rest :=
      List.flatMap_cons
    obtain ⟨hnew, hrest⟩ := List.nodup_cons.mp hkeys
    rw [hwaits, List.count_append]
    rcases List.mem_cons.mp hr with rfl | hr
    · have hnone : (Run.waits rest).count (i, r.key) = 0 :=
        List.count_eq_zero.mpr fun hmem => hnew (mem_keys_of_mem_waits hmem)
      rw [hnone, Nat.add_zero]
      exact (List.count_map_of_injective r.copies (fun i => (i, r.key))
        (fun a b hab => (Prod.mk.inj hab).1) i).symm
    · have hnone : (r'.copies.map fun i => (i, r'.key)).count (i, r.key) = 0 :=
        List.count_eq_zero.mpr fun hmem => by
          obtain ⟨_, -, heq⟩ := List.mem_map.mp hmem
          exact hnew ((Prod.mk.inj heq).2 ▸ List.mem_map_of_mem hr)
      rw [hnone, Nat.zero_add]
      exact ih hrest hr

/-- The look-ups are those of the copies of the desk, and then those of the copies beside it. -/
theorem lookUps_beside {waiting : CacheKey → List Nat} (ts : List (String × Transform)) :
    (d.beside more waiting).lookUps ts = firstLookUps ts d.copies.length ++
      (List.range more.length).flatMap fun e => ts.map (Prod.mk (d.copies.length + e)) := by
  rw [lookUps, beside, List.length_append, List.range_add, List.flatMap_append, List.flatMap_map]
  rfl

namespace Reflects

variable {l : Layout} {d' : Desk} {more' : List WorkingCopy} {waiting : CacheKey → List Nat}
  {keys : List CacheKey}

/-- A copy beside the desk looks up what the one that it mirrors does. -/
theorem browse (h : d.Reflects l kept waiting more)
    (hsearched : HasSearched l.Has kept ts d.copies.length d d') (hx : more[e]? = some x) : ∃ c,
    d.copies[l.model e]? = some c ∧
    (browse d.cache x.value ts).1.Mirrors (l.own (l.model e)) (l.shift e) (d.held kept)
      (browse d.cache c.value ts).1 ∧
    (browse d.cache x.value ts).2 = (browse d.cache c.value ts).2 ∧
    BrowsesIn (l.Owns e) d.cache x.value ts := by
  have he : e < l.size := h.size ▸ (List.getElem?_eq_some_iff.mp hx).1
  obtain ⟨c, hc, hmirrors⟩ := h.mirrors hx
  obtain ⟨hbrowsed, hasked, hin⟩ := browse_mirrors h.owned.cache
    (fun p hp => h.avoids ⟨he, p, hp, rfl⟩) ts hmirrors
    (hsearched.apart (List.getElem?_eq_some_iff.mp hc).1 hc)
  refine ⟨c, hc, hbrowsed, hasked, hin.imp (fun n hn => ?_) ts⟩
  obtain ⟨p, hp, -, rfl⟩ := hn
  exact ⟨he, p, hp, rfl⟩

/-- So it asks for no other keys than those of the runs that there are. -/
theorem exists_hasJoined (h : d.Reflects l kept waiting more)
    (hsearched : HasSearched l.Has kept ts d.copies.length d d') (hstarted : d'.Started ts keys)
    (hnone : ∀ {i : Nat} {c : WorkingCopy}, i < d.copies.length → d.copies[i]? = some c →
      faultsOf (Field.browse d.cache c.value ts).2 = []) : ∃ more' waiting',
    HasJoined l.Owns (d'.held kept) ts d' more more.length more' waiting' ∧
      ((List.range more.length).flatMap fun e => ts.map (Prod.mk (d'.copies.length + e))).foldl ask
        (d'.beside more fun _ => []) = d'.beside more' waiting' := by
  refine Desk.exists_hasJoined ts l.parted hsearched.owned (hsearched.held ▸ h.areOwned)
    (fun howns => hsearched.held ▸ h.avoids howns) hstarted.keys (fun e x hx => ?_)
    (fun e x hx key hkey => ?_) (fun e x hx => ?_) more.length (Nat.le_refl _) <;>
    obtain ⟨c, hc, -, hasked, hin⟩ := h.browse hsearched hx
  · rw [hsearched.cache, hasked]
    exact hnone (List.getElem?_eq_some_iff.mp hc).1 hc
  · rw [hsearched.cache, hasked, ← List.count_pos_iff,
      ← hsearched.waits (List.getElem?_eq_some_iff.mp hc).1 hc, List.count_pos_iff] at hkey
    exact mem_keys_of_mem_waits hkey
  · rwa [hsearched.cache]

/-- It waits for a run as often as the one that it mirrors does. -/
theorem waitsAlike (h : d.Reflects l kept waiting more) (hts : ∀ e ∈ ts, e.2.IgnoresMarks)
    (hsearched : HasSearched l.Has kept ts d.copies.length d d') (hstarted : d'.Started ts keys)
    {waiting' : CacheKey → List Nat}
    (hjoined : HasJoined l.Owns (d'.held kept) ts d' more more.length more' waiting') :
    d'.WaitsAlike l waiting' where
  calls := forall_call_of_calls hsearched.calls h.calls
  copies := hstarted.waiting
  places := fun r _ i hi => h.size ▸ hjoined.places hi
  counts := fun r hr e he => by
    have hx := List.getElem?_eq_getElem (h.size.symm ▸ he : e < more.length)
    obtain ⟨c, hc, -, hasked, -⟩ := h.browse hsearched hx
    rw [hjoined.counts (h.size.symm ▸ he) hx, hsearched.cache, hasked, count_copies hstarted.keys hr,
      hsearched.waits (List.getElem?_eq_some_iff.mp hc).1 hc]
  transforms := fun r hr => hts _ (hstarted.registered r hr)

/-- **After all look-ups, copies beside a desk mirror its own**, and wait for the runs that these wait
for. -/
theorem lookUpAll (h : d.Reflects l kept (fun _ => []) more) (hruns : d.runs = [])
    (hts : ∀ e ∈ ts, e.2.IgnoresMarks) (hsearch : ∀ s ∈ d.search ts, s.1.LooksApart kept s.2)
    (hfaults : Entries.find? 0 (d.lookUpAll ts).faults = none) : ∃ more' waiting,
    (d.beside more fun _ => []).lookUpAll ts = (d.lookUpAll ts).beside more' waiting ∧
      (d.lookUpAll ts).Reflects l kept waiting more' := by
  have hstarted := (started_lookUpAll hruns ts).2
  have hsearched : HasSearched l.Has kept ts d.copies.length d (d.lookUpAll ts) := by
    rw [lookUpAll_eq_foldl]
    exact h.owned.search l.parted.inside hruns h.calls d.copies.length (Nat.le_refl _) hsearch
  obtain ⟨hsame, hnone⟩ := hsearched.faults hfaults
  have hleft := firstLookUps_beside l.parted h.owned h.areOwned hruns h.calls d.copies.length
    (Nat.le_refl _) hnone hsearch
  obtain ⟨more', waiting, hjoined, hright⟩ := h.exists_hasJoined hsearched hstarted hnone
  refine ⟨more', waiting, ?_, h.waitsAlike hts hsearched hstarted hjoined, hsearched.owned,
    hjoined.length.trans h.size, fun {e x'} hx' => ?_, hjoined.areOwned,
    fun howns => hsearched.held ▸ h.avoids howns, fun howns => hsearched.nextMark ▸ h.below howns,
    hsame.trans h.faults⟩
  · rw [lookUpAll_eq_foldl, lookUps_beside, List.foldl_append, hleft, ← hright,
      length_copies_of_calls hsearched.calls, lookUpAll_eq_foldl]
    rfl
  · have he : e < more.length := hjoined.length ▸ (List.getElem?_eq_some_iff.mp hx').1
    have hself := hjoined.copies (List.getElem?_eq_getElem he)
    rw [if_pos he, hsearched.cache, hx'] at hself
    obtain rfl := Option.some.inj hself
    obtain ⟨c, hc, hmirrors, -⟩ := h.browse hsearched (List.getElem?_eq_getElem he)
    have hc' := hsearched.copies hc
    rw [if_pos (List.getElem?_eq_some_iff.mp hc).1] at hc'
    rw [hsearched.held]
    exact ⟨_, hc', hmirrors⟩

end Reflects

end Desk

end Verdict
