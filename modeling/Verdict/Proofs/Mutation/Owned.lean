import Verdict.Proofs.Mutation.LookUp
import Verdict.Proofs.Path.Mirror

/-!
# Proofs/Mutation/Owned — copies with containers of their own

    copy i:   own containers ─┐
                              ├─ no write goes into what is held for all
    results:  held for all ───┘

What a copy holds are containers of its own, and containers of kept results and of outcomes, which are
**held** for all copies (`Desk.IsOwned`).  Where nothing is put into a container that is held, what is
put into a copy shows in that copy alone (`Desk.IsOwned.put_eq`).  So the look-ups of a copy come to what
the copy comes to by itself (`Desk.IsOwned.lookUps`), and so do the hands of an outcome
(`Desk.IsOwned.hands`).
-/

namespace Verdict

/-- The marks of the outcome of a run. -/
def Run.outcomeMarks (r : Run) : List Nat :=
  match r.outcome with
  | some (.ok v) => v.marks
  | _ => []

namespace Desk

/-- The marks of all outcomes. -/
def outcomeMarks (d : Desk) : List Nat := d.runs.flatMap Run.outcomeMarks

/-- The marks of what is held for all copies: of results that were kept before, and of outcomes. -/
def held (kept : List Nat) (d : Desk) : List Nat := kept ++ d.outcomeMarks

/-- A desk on which copies hold containers of their own, and such as are held for all. -/
structure IsOwned (own : Nat → Nat → Prop) (kept : List Nat) (d : Desk) : Prop where
  copies {i : Nat} {c : WorkingCopy} : d.copies[i]? = some c →
    ∀ n ∈ c.value.marks, own i n ∨ n ∈ d.held kept
  inputs : ∀ r ∈ d.runs, ∀ n ∈ r.input.marks, (∃ i, own i n) ∨ n ∈ d.held kept
  cache : ∀ e ∈ d.cache, ∀ n ∈ e.2.marks, n ∈ d.held kept

/-- A value that is put into a copy goes into no container that is held for all. -/
def IsApart (kept : List Nat) (d : Desk) (i : Nat) (name : String) (v : Value) : Prop :=
  ∀ c, d.copies[i]? = some c → c.value.AcceptsIn (· ∉ d.held kept) name v

/-- A look-up whose kept result goes into no container that is held for all. -/
def LooksApart (kept : List Nat) (d : Desk) (q : LookUp) : Prop :=
  ∀ key f v, d.found q = .ok (some (key, f)) → Entries.find? key d.cache = some v →
    d.IsApart kept q.1 q.2.1 v

/-- A deed that puts a result into no container that is held for all. -/
def HandsApart (kept : List Nat) (d : Desk) (a : Deed) : Prop :=
  ∀ r v, d.receipt? a = some r → r.outcome = .ok v → d.IsApart kept r.copy r.key.1 v

/-- A desk with another value for a copy, and with inputs changed. -/
def revise (d : Desk) (i : Nat) (c : WorkingCopy) (v : Value) (f : Value → Value) : Desk :=
  { d with
    copies := d.copies.set i { c with value := v }
    runs := d.runs.map fun r => { r with input := f r.input } }

variable {own : Nat → Nat → Prop} {kept : List Nat} {d : Desk} {i : Nat} {c : WorkingCopy}
  {name : String} {v : Value}

theorem mem_held_of_outcome {r : Run} (hr : r ∈ d.runs) (hv : r.outcome = some (.ok v)) {n : Nat}
    (hn : n ∈ v.marks) : n ∈ d.held kept := by
  refine List.mem_append_right _ (List.mem_flatMap.mpr ⟨r, hr, ?_⟩)
  rwa [Run.outcomeMarks, hv]

@[simp] theorem held_revise (f : Value → Value) : (d.revise i c v f).held kept = d.held kept := by
  rw [held, held, outcomeMarks, outcomeMarks, revise, List.flatMap_map]
  rfl

/-! ## What is put into a copy -/

section Elsewhere

variable {w : Write} {p : Nat} (hp : w.before.mark = some p) (hheld : p ∉ d.held kept)
include hp hheld

/-- A write into a container that is not held for all does not show in outcomes, … -/
theorem outcome_elsewhere {r : Run} (hr : r ∈ d.runs) :
    (r.outcome.map fun o => o.map w.applyElsewhere) = r.outcome := by
  rcases ho : r.outcome with _ | (f | u)
  · rfl
  · rfl
  · rw [Option.map_some, Except.map,
      Write.applyElsewhere_of_not_mem hp fun hn => hheld (mem_held_of_outcome hr ho hn)]

/-- … and in no kept result. -/
theorem IsOwned.cache_elsewhere (h : d.IsOwned own kept) :
    (d.cache.map fun e => (e.1, w.applyElsewhere e.2)) = d.cache := by
  refine (List.map_congr_left fun e he => ?_).trans (List.map_id _)
  exact Prod.ext rfl (Write.applyElsewhere_of_not_mem hp fun hn => hheld (h.cache e he p hn))

end Elsewhere

/-- **A write into a container that only one copy holds shows in that copy alone**, and in inputs. -/
theorem IsOwned.apply_eq (h : d.IsOwned own kept) (hown : ∀ {i j n}, own i n → own j n → i = j)
    (hc : d.copies[i]? = some c) {w : Write} {p : Nat} (hp : w.before.mark = some p) (hi : own i p)
    (hheld : p ∉ d.held kept) :
    d.apply i w = d.revise i c (w.applyTo c.value) w.applyElsewhere := by
  refine (Desk.mk.injEq ..).mpr ⟨List.ext_getElem? fun j => ?_, ?_, ?_, rfl, rfl⟩
  · rw [List.getElem?_mapIdx, List.getElem?_set]
    by_cases hj : i = j
    · subst hj
      rw [hc, if_pos rfl, if_pos (List.getElem?_eq_some_iff.mp hc).1, Option.map_some, if_pos rfl]
    · rw [if_neg hj]
      cases hcopy : d.copies[j]? with
      | none => rfl
      | some c' =>
        rw [Option.map_some, if_neg (Ne.symm hj), Write.applyElsewhere_of_not_mem hp fun hn => ?_]
        exact (h.copies hcopy p hn).elim (fun hj' => hj (hown hi hj')) hheld
  · exact List.map_congr_left fun r hr => by rw [outcome_elsewhere hp hheld hr]
  · exact h.cache_elsewhere hp hheld

/-- **What is put into a copy shows in that copy alone**, and in inputs. -/
theorem IsOwned.put_eq (h : d.IsOwned own kept) (hown : ∀ {i j n}, own i n → own j n → i = j)
    (hc : d.copies[i]? = some c) (hapart : c.value.AcceptsIn (· ∉ d.held kept) name v) :
    ∃ f : Value → Value, d.put i name v = d.revise i c (c.value.accept name v) f ∧
      ∀ u n, n ∈ (f u).marks → n ∈ u.marks ∨ n ∈ c.value.marks ∨ n ∈ v.marks := by
  rw [put, hc]
  dsimp only
  rcases c.value.accept_cases name v with ⟨w, hw, heq⟩ | ⟨hskip, heq⟩ <;> rw [heq]
  · obtain ⟨p, hp, hheld⟩ := hapart w hw
    have hi : own i p := (h.copies hc p ((Path.mem_marks_of_write? hw).1
      (Value.mem_marks_of_mark hp))).resolve_right hheld
    rw [hw]
    exact ⟨w.applyElsewhere, h.apply_eq hown hc hp hi hheld, fun u n hn =>
      (Write.mem_marks_applyElsewhere hn).imp_right (Path.mem_marks_of_write? hw).2⟩
  · refine ⟨id, ?_, fun u n hn => .inl hn⟩
    have hrevised : d.revise i c c.value id = d := by
      rw [revise, set_of_getElem? hc, List.map_id'']
      exact fun r => rfl
    rw [hrevised]
    split
    · next w hw => exact absurd hw (hskip w)
    · rfl

/-- So each copy goes on to hold its own containers, and such as are held for all. -/
theorem IsOwned.revise (h : d.IsOwned own kept) (hc : d.copies[i]? = some c)
    (hv : ∀ n ∈ v.marks, n ∈ d.held kept) {f : Value → Value}
    (hf : ∀ u n, n ∈ (f u).marks → n ∈ u.marks ∨ n ∈ c.value.marks ∨ n ∈ v.marks) :
    (d.revise i c (c.value.accept name v) f).IsOwned own kept where
  copies := fun {j c'} hc' n hn => by
    rw [held_revise]
    rw [Desk.revise, List.getElem?_set] at hc'
    split at hc'
    · next hj =>
      subst hj
      rw [if_pos (List.getElem?_eq_some_iff.mp hc).1] at hc'
      obtain rfl := Option.some.inj hc'
      exact (Value.mem_marks_accept hn).elim (h.copies hc n) fun hn => .inr (hv n hn)
    · exact h.copies hc' n hn
  inputs := fun r' hr' n hn => by
    rw [held_revise]
    obtain ⟨r, hr, rfl⟩ := List.mem_map.mp hr'
    rcases hf r.input n hn with hn | hn | hn
    · exact h.inputs r hr n hn
    · exact (h.copies hc n hn).imp_left fun hi => ⟨i, hi⟩
    · exact .inr (hv n hn)
  cache := fun e he n hn => by
    rw [held_revise]
    exact h.cache e he n hn

/-! ## The look-ups of a copy -/

/-- **What a look-up of a copy does.** -/
theorem ask_of_copy (hc : d.copies[i]? = some c) (e : String × Transform) : d.ask (i, e) =
    match Field.lookUp? c.value e with
    | .error f => { d with faults := withFault d.faults (c.call, f) }
    | .ok none => d
    | .ok (some q) =>
      match Entries.find? q.1 d.cache with
      | some v => d.put i e.1 v
      | none => { d with runs := enroll i q d.runs } := by
  have hfound : d.found (i, e) = Field.lookUp? c.value e := by
    rw [found, hc]
  rcases ask_cases d (i, e) with ⟨-, faults, heq, hcase⟩ | ⟨-, key, f, v, hlook, hkept, heq⟩ |
    ⟨key, f, -, hlook, hkept, heq⟩
  · rcases hcase with ⟨hlook, rfl⟩ | ⟨c', f, hc', hlook, rfl⟩
    · rw [heq, ← hfound, hlook]
    · obtain rfl := Option.some.inj (hc.symm.trans hc')
      rw [heq, ← hfound, hlook]
  · rw [heq, ← hfound, hlook]
    dsimp only
    rw [hkept]
  · rw [heq, ← hfound, hlook]
    dsimp only
    rw [hkept]

end Desk

namespace Field

/-- What comes of the look-ups of a root, one after another, where kept results are put in at once: the
root afterwards, and the faults and the keys that nothing is kept for. -/
def browse (cache : List (CacheKey × Value)) : Value → List (String × Transform) →
    Value × List (Except Fault CacheKey)
  | root, [] => (root, [])
  | root, e :: rest =>
    match lookUp? root e with
    | .error f => ((browse cache root rest).1, .error f :: (browse cache root rest).2)
    | .ok none => browse cache root rest
    | .ok (some (key, _)) =>
      match Entries.find? key cache with
      | some v => browse cache (root.accept e.1 v) rest
      | none => ((browse cache root rest).1, .ok key :: (browse cache root rest).2)

/-- All kept results that are put in go into containers with certain marks. -/
def BrowsesIn (W : Nat → Prop) (cache : List (CacheKey × Value)) :
    Value → List (String × Transform) → Prop
  | _, [] => True
  | root, e :: rest =>
    match lookUp? root e with
    | .ok (some (key, _)) =>
      match Entries.find? key cache with
      | some v => root.AcceptsIn W e.1 v ∧ BrowsesIn W cache (root.accept e.1 v) rest
      | none => BrowsesIn W cache root rest
    | _ => BrowsesIn W cache root rest

section Browse

variable {W : Nat → Prop} {cache : List (CacheKey × Value)} {root : Value} {e : String × Transform}
  {rest : List (String × Transform)} {q : CacheKey × Field} {v : Value}

attribute [local simp] browse BrowsesIn

theorem browse_of_error (cache : List (CacheKey × Value)) {f : Fault}
    (h : lookUp? root e = .error f) :
    browse cache root (e :: rest) = ((browse cache root rest).1, .error f :: (browse cache root rest).2) := by
  simp [h]

theorem browse_of_none (cache : List (CacheKey × Value)) (h : lookUp? root e = .ok none) :
    browse cache root (e :: rest) = browse cache root rest := by
  simp [h]

theorem browse_of_kept (h : lookUp? root e = .ok (some q)) (hkept : Entries.find? q.1 cache = some v) :
    browse cache root (e :: rest) = browse cache (root.accept e.1 v) rest := by
  simp [h, hkept]

theorem browse_of_waits (h : lookUp? root e = .ok (some q)) (hkept : Entries.find? q.1 cache = none) :
    browse cache root (e :: rest) = ((browse cache root rest).1, .ok q.1 :: (browse cache root rest).2) := by
  simp [h, hkept]

theorem browsesIn_of_error {f : Fault} (h : lookUp? root e = .error f) :
    BrowsesIn W cache root (e :: rest) ↔ BrowsesIn W cache root rest := by
  simp [h]

theorem browsesIn_of_none (h : lookUp? root e = .ok none) :
    BrowsesIn W cache root (e :: rest) ↔ BrowsesIn W cache root rest := by
  simp [h]

theorem browsesIn_of_kept (h : lookUp? root e = .ok (some q))
    (hkept : Entries.find? q.1 cache = some v) : BrowsesIn W cache root (e :: rest) ↔
      root.AcceptsIn W e.1 v ∧ BrowsesIn W cache (root.accept e.1 v) rest := by
  simp [h, hkept]

theorem browsesIn_of_waits (h : lookUp? root e = .ok (some q))
    (hkept : Entries.find? q.1 cache = none) :
    BrowsesIn W cache root (e :: rest) ↔ BrowsesIn W cache root rest := by
  simp [h, hkept]

/-- **A look-up puts a kept result into the root, or leaves the root as it is.** -/
theorem browse_cases (cache : List (CacheKey × Value)) (root : Value) (e : String × Transform) :
    (∃ asked, (∀ rest, browse cache root (e :: rest) =
        ((browse cache root rest).1, asked ++ (browse cache root rest).2)) ∧
      ∀ W rest, BrowsesIn W cache root (e :: rest) ↔ BrowsesIn W cache root rest) ∨
    ∃ key v, Entries.find? key cache = some v ∧
      (∀ rest, browse cache root (e :: rest) = browse cache (root.accept e.1 v) rest) ∧
      ∀ W rest, BrowsesIn W cache root (e :: rest) ↔
        root.AcceptsIn W e.1 v ∧ BrowsesIn W cache (root.accept e.1 v) rest := by
  rcases hlook : lookUp? root e with f | (_ | q)
  · exact .inl ⟨[.error f], fun _ => browse_of_error cache hlook, fun _ _ => browsesIn_of_error hlook⟩
  · exact .inl ⟨[], fun _ => browse_of_none cache hlook, fun _ _ => browsesIn_of_none hlook⟩
  · cases hkept : Entries.find? q.1 cache with
    | none =>
      exact .inl ⟨[.ok q.1], fun _ => browse_of_waits hlook hkept,
        fun _ _ => browsesIn_of_waits hlook hkept⟩
    | some v =>
      exact .inr ⟨q.1, v, hkept, fun _ => browse_of_kept hlook hkept,
        fun _ _ => browsesIn_of_kept hlook hkept⟩

/-- A look-up before others. -/
theorem browse_cons (cache : List (CacheKey × Value)) (root : Value) (e : String × Transform)
    (rest : List (String × Transform)) : browse cache root (e :: rest) =
      ((browse cache (browse cache root [e]).1 rest).1,
        (browse cache root [e]).2 ++ (browse cache (browse cache root [e]).1 rest).2) := by
  rcases browse_cases cache root e with ⟨asked, hbrowse, -⟩ | ⟨key, v, -, hbrowse, -⟩
  · rw [hbrowse, hbrowse]
    simp only [browse, List.append_nil]
  · rw [hbrowse, hbrowse]
    rfl

theorem browsesIn_cons : BrowsesIn W cache root (e :: rest) ↔
    BrowsesIn W cache root [e] ∧ BrowsesIn W cache (browse cache root [e]).1 rest := by
  rcases browse_cases cache root e with ⟨asked, hbrowse, hiff⟩ | ⟨key, v, -, hbrowse, hiff⟩ <;>
    rw [hiff, hiff, hbrowse]
  · exact (iff_of_eq (true_and _)).symm
  · rw [and_assoc]
    exact and_congr_right fun _ => (iff_of_eq (true_and _)).symm

theorem BrowsesIn.imp {W' : Nat → Prop} (hW : ∀ n, W n → W' n) (ts : List (String × Transform)) :
    ∀ {root : Value}, BrowsesIn W cache root ts → BrowsesIn W' cache root ts := by
  induction ts with
  | nil => exact fun h => h
  | cons e rest ih =>
    intro root h
    rcases browse_cases cache root e with ⟨_, -, hiff⟩ | ⟨key, v, -, -, hiff⟩ <;> rw [hiff] at h ⊢
    · exact ih h
    · exact ⟨h.1.imp fun n _ => hW n, ih h.2⟩

/-- Look-ups bring in no marks but those of kept results. -/
theorem mem_marks_browse {held : List Nat} (hcache : ∀ k ∈ cache, ∀ n ∈ k.2.marks, n ∈ held) {n : Nat}
    (ts : List (String × Transform)) : ∀ {root : Value}, n ∈ (browse cache root ts).1.marks →
      n ∈ root.marks ∨ n ∈ held := by
  induction ts with
  | nil => exact fun h => .inl h
  | cons e rest ih =>
    intro root h
    rcases browse_cases cache root e with ⟨asked, hbrowse, -⟩ | ⟨key, v, hkept, hbrowse, -⟩ <;>
      rw [hbrowse] at h
    · exact ih h
    · refine (ih h).elim (fun hn => (Value.mem_marks_accept hn).imp_right ?_) .inr
      exact hcache _ (Entries.mem_of_find? hkept) n

end Browse

/-- The faults among what comes of look-ups. -/
def faultsOf (asked : List (Except Fault CacheKey)) : List Fault :=
  asked.filterMap fun
    | .error f => some f
    | .ok _ => none

/-- The keys among what comes of look-ups. -/
def keysOf (asked : List (Except Fault CacheKey)) : List CacheKey :=
  asked.filterMap fun
    | .error _ => none
    | .ok key => some key

variable {asked rest : List (Except Fault CacheKey)}

theorem faultsOf_append : faultsOf (asked ++ rest) = faultsOf asked ++ faultsOf rest :=
  List.filterMap_append

theorem keysOf_append : keysOf (asked ++ rest) = keysOf asked ++ keysOf rest := List.filterMap_append

end Field

namespace Desk

open Verdict.Field

variable {own : Nat → Nat → Prop} {kept : List Nat} {i : Nat}

/-- A desk after the look-ups of a copy: what the copy comes to by itself. -/
structure HasBrowsed (own : Nat → Nat → Prop) (kept : List Nat) (i : Nat)
    (ts : List (String × Transform)) (d : Desk) (c : WorkingCopy) (d' : Desk) : Prop where
  owned : d'.IsOwned own kept
  held : d'.held kept = d.held kept
  cache : d'.cache = d.cache
  nextMark : d'.nextMark = d.nextMark
  copies : d'.copies = d.copies.set i { c with value := (browse d.cache c.value ts).1 }
  faults : d'.faults = ((faultsOf (browse d.cache c.value ts).2).map (Prod.mk c.call)).foldl withFault
    d.faults
  waits : (Run.waits d'.runs).Perm
    (Run.waits d.runs ++ (keysOf (browse d.cache c.value ts).2).map (Prod.mk i))
  apart : BrowsesIn (fun n => own i n ∧ n ∉ d.held kept) d.cache c.value ts

theorem held_enroll {d : Desk} (q : CacheKey × Field) :
    ({ d with runs := enroll i q d.runs } : Desk).held kept = d.held kept := by
  rw [held, held, outcomeMarks, outcomeMarks]
  dsimp only
  rcases enroll_cases i q d.runs with ⟨-, heq⟩ | ⟨before, r, after, hruns, -, -, heq⟩ <;> rw [heq]
  · rw [List.flatMap_append, List.flatMap_singleton]
    exact congrArg _ (List.append_nil _)
  · rw [hruns, List.flatMap_append, List.flatMap_append, List.flatMap_cons, List.flatMap_cons]
    rfl

theorem of_mem_enroll {runs : List Run} {q : CacheKey × Field} {r : Run}
    (hr : r ∈ enroll i q runs) : (∃ r' ∈ runs, r.input = r'.input ∧ r.outcome = r'.outcome) ∨
      r.input = q.2.input ∧ r.outcome = none := by
  rcases enroll_cases i q runs with ⟨-, heq⟩ | ⟨before, r', after, rfl, -, -, heq⟩ <;> rw [heq] at hr
  · rcases List.mem_append.mp hr with hr | hr
    · exact .inl ⟨r, hr, rfl, rfl⟩
    · obtain rfl := List.mem_singleton.mp hr
      exact .inr ⟨rfl, rfl⟩
  · rcases List.mem_append.mp hr with hr | hr
    · exact .inl ⟨r, List.mem_append_left _ hr, rfl, rfl⟩
    · rcases List.mem_cons.mp hr with rfl | hr
      · exact .inl ⟨r', by simp, rfl, rfl⟩
      · exact .inl ⟨r, by simp [hr], rfl, rfl⟩

theorem mem_marks_of_lookUp? {root : Value} {e : String × Transform} {q : CacheKey × Field}
    (h : lookUp? root e = .ok (some q)) {n : Nat} (hn : n ∈ q.2.input.marks) : n ∈ root.marks := by
  rw [lookUp?] at h
  split at h
  · cases h
  · cases h
  · next v hv =>
    cases hkey : cacheKey e.1 v with
    | error f => rw [hkey] at h; cases h
    | ok key =>
      rw [hkey] at h
      cases h
      exact Path.mem_marks_of_resolve hv hn

theorem IsOwned.enroll {d : Desk} {c : WorkingCopy} (h : d.IsOwned own kept)
    (hc : d.copies[i]? = some c) {e : String × Transform} {q : CacheKey × Field}
    (hlook : lookUp? c.value e = .ok (some q)) :
    IsOwned own kept { d with runs := Desk.enroll i q d.runs } := by
  have hheld : ({ d with runs := Desk.enroll i q d.runs } : Desk).held kept = d.held kept :=
    held_enroll q
  refine ⟨fun hc' n hn => hheld ▸ h.copies hc' n hn, fun r hr n hn => ?_,
    fun e he n hn => hheld ▸ h.cache e he n hn⟩
  rw [hheld]
  rcases of_mem_enroll hr with ⟨r', hr', heq, -⟩ | ⟨heq, -⟩ <;> rw [heq] at hn
  · exact h.inputs r' hr' n hn
  · exact (h.copies hc n (mem_marks_of_lookUp? hlook hn)).imp_left fun hi => ⟨i, hi⟩

variable {d d₁ d₂ : Desk} {c : WorkingCopy} {e : String × Transform}

/-- A look-up before others. -/
theorem HasBrowsed.cons {rest : List (String × Transform)} (h : HasBrowsed own kept i [e] d c d₁)
    (h' : HasBrowsed own kept i rest d₁ { c with value := (browse d.cache c.value [e]).1 } d₂) :
    HasBrowsed own kept i (e :: rest) d c d₂ where
  owned := h'.owned
  held := h'.held.trans h.held
  cache := h'.cache.trans h.cache
  nextMark := h'.nextMark.trans h.nextMark
  copies := by rw [h'.copies, h.copies, List.set_set, h.cache, browse_cons d.cache c.value e rest]
  faults := by
    rw [h'.faults, h.faults, h.cache, browse_cons d.cache c.value e rest, faultsOf_append,
      List.map_append, List.foldl_append]
  waits := by
    refine h'.waits.trans ((h.waits.append_right _).trans (.of_eq ?_))
    rw [h.cache, browse_cons d.cache c.value e rest, keysOf_append, List.map_append,
      List.append_assoc]
  apart := by
    have hrest := h'.apart
    rw [h.cache, h.held] at hrest
    exact browsesIn_cons.mpr ⟨h.apart, hrest⟩

/-- A look-up that finds a kept result puts it into its copy alone. -/
theorem IsOwned.ask_of_kept (h : d.IsOwned own kept) (hown : ∀ {i j n}, own i n → own j n → i = j)
    (hc : d.copies[i]? = some c) (hapart : d.LooksApart kept (i, e)) {q : CacheKey × Field}
    (hlook : lookUp? c.value e = .ok (some q)) {v : Value}
    (hkept : Entries.find? q.1 d.cache = some v) :
    HasBrowsed own kept i [e] d c (d.put i e.1 v) := by
  have hbrowse : browse d.cache c.value [e] = _ := browse_of_kept hlook hkept
  have hfound : d.found (i, e) = .ok (some q) := by
    rw [found, hc]
    exact hlook
  have haccepts : c.value.AcceptsIn (· ∉ d.held kept) e.1 v := hapart q.1 q.2 v hfound hkept c hc
  have hv : ∀ n ∈ v.marks, n ∈ d.held kept := h.cache _ (Entries.mem_of_find? hkept)
  obtain ⟨g, hput, hg⟩ := h.put_eq hown hc haccepts
  rw [hput]
  refine ⟨h.revise hc hv hg, held_revise g, rfl, rfl, ?_, ?_, ?_,
    (browsesIn_of_kept hlook hkept).mpr ⟨haccepts.imp fun n hn hnot =>
      ⟨(h.copies hc n hn).resolve_right hnot, hnot⟩, trivial⟩⟩ <;> rw [hbrowse]
  · rfl
  · rfl
  · rw [Desk.revise, Run.waits, List.flatMap_map]
    exact .of_eq (List.append_nil _).symm

/-- **A look-up of a copy comes to what the copy comes to by itself.** -/
theorem IsOwned.ask (h : d.IsOwned own kept) (hown : ∀ {i j n}, own i n → own j n → i = j)
    (hc : d.copies[i]? = some c) (hapart : d.LooksApart kept (i, e)) :
    HasBrowsed own kept i [e] d c (d.ask (i, e)) := by
  have hset : d.copies = d.copies.set i c := (set_of_getElem? hc).symm
  have hsame := (List.append_nil (Run.waits d.runs)).symm
  have heq := ask_of_copy hc e
  -- Only a kept result changes the copy: a fault, nothing found and a run leave it as it is.
  cases hlook : lookUp? c.value e with
  | error f =>
    have hbrowse : browse d.cache c.value [e] = _ := browse_of_error d.cache hlook
    rw [hlook] at heq
    rw [heq]
    refine ⟨⟨h.copies, h.inputs, h.cache⟩, rfl, rfl, rfl, ?_, ?_, ?_,
      (browsesIn_of_error hlook).mpr trivial⟩ <;> rw [hbrowse]
    · exact hset
    · rfl
    · exact .of_eq hsame
  | ok q? =>
    cases q? with
    | none =>
      have hbrowse : browse d.cache c.value [e] = _ := browse_of_none d.cache hlook
      rw [hlook] at heq
      rw [heq]
      refine ⟨h, rfl, rfl, rfl, ?_, ?_, ?_, (browsesIn_of_none hlook).mpr trivial⟩ <;> rw [hbrowse]
      · exact hset
      · rfl
      · exact .of_eq hsame
    | some q =>
      rw [hlook] at heq
      dsimp only at heq
      cases hkept : Entries.find? q.1 d.cache with
      | none =>
        have hbrowse : browse d.cache c.value [e] = _ := browse_of_waits hlook hkept
        rw [hkept] at heq
        rw [heq]
        refine ⟨h.enroll hc hlook, held_enroll q, rfl, rfl, ?_, ?_, ?_,
          (browsesIn_of_waits hlook hkept).mpr trivial⟩ <;> rw [hbrowse]
        · exact hset
        · rfl
        · exact Run.waits_enroll i q d.runs
      | some v =>
        rw [hkept] at heq
        rw [heq]
        exact h.ask_of_kept hown hc hapart hlook hkept

/-- **The look-ups of a copy come to what the copy comes to by itself.** -/
theorem IsOwned.lookUps (h : d.IsOwned own kept) (hown : ∀ {i j n}, own i n → own j n → i = j)
    (ts : List (String × Transform)) (hc : d.copies[i]? = some c)
    (htrace : ∀ s ∈ trace Desk.ask d (ts.map (Prod.mk i)), s.1.LooksApart kept s.2) :
    HasBrowsed own kept i ts d c ((ts.map (Prod.mk i)).foldl Desk.ask d) := by
  induction ts generalizing d c with
  | nil =>
    refine ⟨h, rfl, rfl, rfl, (set_of_getElem? hc).symm, rfl, ?_, trivial⟩
    exact .of_eq (List.append_nil _).symm
  | cons e rest ih =>
    obtain ⟨hfirst, hrest⟩ := List.forall_mem_cons.mp htrace
    have hasked := h.ask hown hc hfirst
    refine hasked.cons (ih hasked.owned ?_ hrest)
    rw [hasked.copies, List.getElem?_set_self (List.getElem?_eq_some_iff.mp hc).1]

/-! ## The hands of an outcome -/

variable {d : Desk} {r : Run} {v : Value} {j : Nat}

theorem hand_eq_put_outcome (hr : d.runs[j]? = some r) (hv : r.outcome = some (.ok v)) (i : Nat) :
    d.hand j i = d.put i r.key.1 v := hand_eq_receive hr hv

/-- **A hand shows in its copy alone**, and in inputs. -/
theorem IsOwned.hand (h : d.IsOwned own kept) (hown : ∀ {i j n}, own i n → own j n → i = j)
    (hr : d.runs[j]? = some r) (hv : r.outcome = some (.ok v)) {c : WorkingCopy}
    (hc : d.copies[i]? = some c) (hapart : d.HandsApart kept (.hand j i)) :
    (∃ f, d.hand j i = d.revise i c (c.value.accept r.key.1 v) f) ∧ (d.hand j i).IsOwned own kept ∧
      c.value.AcceptsIn (fun n => own i n ∧ n ∉ d.held kept) r.key.1 v := by
  have hreceipt : d.receipt? (.hand j i) = some ⟨i, r.key, .ok v⟩ := by
    rw [receipt?, hr, Option.bind_some, hv, Option.map_some]
  have haccepts := hapart _ v hreceipt rfl c hc
  have hheld : ∀ n ∈ v.marks, n ∈ d.held kept := fun n hn =>
    mem_held_of_outcome (List.mem_of_getElem? hr) hv hn
  obtain ⟨f, hput, hf⟩ := h.put_eq hown hc haccepts
  rw [hand_eq_put_outcome hr hv, hput]
  exact ⟨⟨f, rfl⟩, h.revise hc hheld hf,
    haccepts.imp fun n hn hnot => ⟨(h.copies hc n hn).resolve_right hnot, hnot⟩⟩

/-- A desk after an outcome is handed to copies: what each copy comes to by itself. -/
structure HasHanded (own : Nat → Nat → Prop) (kept : List Nat) (name : String) (v : Value)
    (waiting : List Nat) (d d' : Desk) : Prop where
  owned : d'.IsOwned own kept
  held : d'.held kept = d.held kept
  faults : d'.faults = d.faults
  nextMark : d'.nextMark = d.nextMark
  calls : d'.copies.map WorkingCopy.call = d.copies.map WorkingCopy.call
  runs : ∃ f : Value → Value, d'.runs = d.runs.map fun r => { r with input := f r.input }
  copies {i : Nat} {c : WorkingCopy} : d.copies[i]? = some c → d'.copies[i]? =
    some { c with value := c.value.acceptTimes name v (waiting.count i) }
  apart {i : Nat} {c : WorkingCopy} : d.copies[i]? = some c → ∀ k < waiting.count i,
    (c.value.acceptTimes name v k).AcceptsIn (fun n => own i n ∧ n ∉ d.held kept) name v

variable {d' : Desk} {name : String} {rest : List Nat}

/-- A hand to a copy that there is not, before others. -/
theorem HasHanded.skip (h : HasHanded own kept name v rest d d') (hnone : d.copies[i]? = none) :
    HasHanded own kept name v (i :: rest) d d' := by
  refine ⟨h.owned, h.held, h.faults, h.nextMark, h.calls, h.runs, fun {t c} ht => ?_,
    fun {t c} ht => ?_⟩ <;> have hne : i ≠ t := fun heq => by rw [← heq, hnone] at ht; cases ht
  · rw [List.count_cons_of_ne hne]
    exact h.copies ht
  · rw [List.count_cons_of_ne hne]
    exact h.apart ht

/-- A hand before others. -/
theorem HasHanded.cons {c : WorkingCopy} {f : Value → Value} (hc : d.copies[i]? = some c)
    (haccepts : c.value.AcceptsIn (fun n => own i n ∧ n ∉ d.held kept) name v)
    (h : HasHanded own kept name v rest (d.revise i c (c.value.accept name v) f) d') :
    HasHanded own kept name v (i :: rest) d d' := by
  have hheld : (d.revise i c (c.value.accept name v) f).held kept = d.held kept := held_revise f
  have hself : (d.revise i c (c.value.accept name v) f).copies[i]? =
      some { c with value := c.value.accept name v } :=
    List.getElem?_set_self (List.getElem?_eq_some_iff.mp hc).1
  have hother : ∀ {t}, i ≠ t → (d.revise i c (c.value.accept name v) f).copies[t]? = d.copies[t]? :=
    fun hne => List.getElem?_set_ne hne
  have hcalls : (d.revise i c (c.value.accept name v) f).copies.map WorkingCopy.call =
      d.copies.map WorkingCopy.call := by
    rw [Desk.revise, List.map_set]
    exact set_of_getElem? (by rw [List.getElem?_map, hc, Option.map_some])
  constructor
  case owned => exact h.owned
  case held => exact h.held.trans hheld
  case faults => exact h.faults
  case nextMark => exact h.nextMark
  case calls => exact h.calls.trans hcalls
  case runs =>
    obtain ⟨g, hruns⟩ := h.runs
    refine ⟨g ∘ f, ?_⟩
    rw [hruns, Desk.revise, List.map_map]
    rfl
  case copies =>
    intro t c' ht
    by_cases hne : i = t
    · subst hne
      obtain rfl := Option.some.inj (hc.symm.trans ht)
      rw [List.count_cons_self, Value.acceptTimes]
      exact h.copies hself
    · rw [List.count_cons_of_ne hne]
      exact h.copies ((hother hne).trans ht)
  case apart =>
    intro t c' ht
    by_cases hne : i = t
    · subst hne
      obtain rfl := Option.some.inj (hc.symm.trans ht)
      rw [List.count_cons_self]
      intro k hk
      cases k with
      | zero => exact haccepts
      | succ k =>
        rw [Value.acceptTimes, ← hheld]
        exact h.apart hself k (Nat.lt_of_succ_lt_succ hk)
    · rw [List.count_cons_of_ne hne, ← hheld]
      exact h.apart ((hother hne).trans ht)

/-- **The hands of an outcome come to what each copy comes to by itself.** -/
theorem IsOwned.hands (h : d.IsOwned own kept) (hown : ∀ {i j n}, own i n → own j n → i = j)
    (waiting : List Nat) (hr : d.runs[j]? = some r) (hv : r.outcome = some (.ok v))
    (htrace : ∀ s ∈ trace perform d (waiting.map (Deed.hand j)), s.1.HandsApart kept s.2) :
    HasHanded own kept r.key.1 v waiting d (waiting.foldl (fun d i => d.hand j i) d) := by
  induction waiting generalizing d r with
  | nil =>
    exact ⟨h, rfl, rfl, rfl, rfl, ⟨id, (List.map_id _).symm⟩, id,
      fun _ k hk => absurd hk (Nat.not_lt_zero k)⟩
  | cons i rest ih =>
    obtain ⟨hfirst, hrest⟩ := List.forall_mem_cons.mp htrace
    rw [List.foldl_cons]
    cases hc : d.copies[i]? with
    | none =>
      have hstays : d.hand j i = d := by
        rw [hand_eq_put_outcome hr hv, put, hc]
      rw [hstays]
      exact (ih h hr hv (by rwa [perform, hstays] at hrest)).skip hc
    | some c =>
      obtain ⟨⟨f, heq⟩, howned, haccepts⟩ := h.hand hown hr hv hc hfirst
      have hr' : (d.hand j i).runs[j]? = some { r with input := f r.input } := by
        rw [heq, Desk.revise, List.getElem?_map, hr, Option.map_some]
      have hhanded := ih howned hr' hv hrest
      rw [heq] at hhanded ⊢
      exact .cons hc haccepts hhanded

end Desk

end Verdict
