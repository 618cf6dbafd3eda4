import Verdict.Proofs.Mutation.Desk
import Verdict.Proofs.Path.Marks

/-!
# Proofs/Mutation/Delivery — each copy receives its own errands

    hands ──▸ all copies, writes showing everywhere
      ║ copy i
    errands i ──receive──▸ copy i alone

An **errand** is an outcome that is handed to a copy.  Where the writes into a copy are of containers
that occur neither in the other copies nor in their errands, handing out all outcomes leaves each copy
as it is after receiving its own errands, one after another (`Desk.copies_handAll`).
-/

namespace Verdict

/-- A root after values are put under names, one after another; each write shows in the values that
are still to come. -/
def Value.receive (root : Value) : List (String × Value) → Value
  | [] => root
  | (name, v) :: rest =>
    match Path.write? name root v with
    | .ok (some w) => receive (w.applyTo root) (rest.map fun e => (e.1, w.applyElsewhere e.2))
    | _ => receive root rest
termination_by errands => errands.length

/-- All writes of errands are into containers with certain marks. -/
inductive WritesIn (W : Nat → Prop) : Value → List (String × Value) → Prop
  | nil (root : Value) : WritesIn W root []
  | write {root v : Value} {name : String} {rest : List (String × Value)} {w : Write} :
      Path.write? name root v = .ok (some w) → (∀ n, w.before.mark = some n → W n) →
      WritesIn W (w.applyTo root) (rest.map fun e => (e.1, w.applyElsewhere e.2)) →
      WritesIn W root ((name, v) :: rest)
  | skip {root v : Value} {name : String} {rest : List (String × Value)} :
      (∀ w, Path.write? name root v ≠ .ok (some w)) → WritesIn W root rest →
      WritesIn W root ((name, v) :: rest)

theorem WritesIn.imp {W W' : Nat → Prop} (h : ∀ n, W n → W' n) {root : Value}
    {errands : List (String × Value)} (hW : WritesIn W root errands) :
    WritesIn W' root errands := by
  induction hW with
  | nil root => exact .nil root
  | write hw hbefore _ ih => exact .write hw (fun n hn => h n (hbefore n hn)) ih
  | skip hno _ ih => exact .skip hno ih

namespace Value

variable {root v : Value} {name : String} {rest : List (String × Value)}

theorem receive_write {w : Write} (h : Path.write? name root v = .ok (some w)) :
    root.receive ((name, v) :: rest) =
      (w.applyTo root).receive (rest.map fun e => (e.1, w.applyElsewhere e.2)) := by
  rw [receive, h]

theorem receive_skip (h : ∀ w, Path.write? name root v ≠ .ok (some w)) :
    root.receive ((name, v) :: rest) = root.receive rest := by
  rw [receive]
  split
  · next w hw => exact absurd hw (h w)
  · rfl

end Value

namespace Desk

/-- The outcome of a run, under the name of its field. -/
def errand? (d : Desk) (j : Nat) : Option (String × Value) :=
  match d.runs[j]? with
  | some ⟨key, _, _, _, some (.ok v)⟩ => some (key.1, v)
  | _ => none

/-- The outcomes that are handed to a copy. -/
def errands (d : Desk) (i : Nat) (hands : List (Nat × Nat)) : List (String × Value) :=
  hands.filterMap fun h => if h.2 = i then d.errand? h.1 else none

variable {d : Desk} {i : Nat} {w : Write}

theorem errand?_eq {j : Nat} {r : Run} (hr : d.runs[j]? = some r) :
    d.errand? j = (r.outcome.bind Except.toOption).map (Prod.mk r.key.1) := by
  rw [errand?, hr]
  rcases r with ⟨key, t, copies, input, _ | (f | v)⟩ <;> rfl

theorem errand?_apply (d : Desk) (i : Nat) (w : Write) (j : Nat) :
    (d.apply i w).errand? j = (d.errand? j).map fun e => (e.1, w.applyElsewhere e.2) := by
  rw [errand?, errand?, apply, List.getElem?_map]
  rcases d.runs[j]? with _ | ⟨key, t, copies, input, _ | (f | v)⟩ <;> rfl

theorem errands_apply (d : Desk) (i i' : Nat) (w : Write) (hands : List (Nat × Nat)) :
    (d.apply i w).errands i' hands =
      (d.errands i' hands).map fun e => (e.1, w.applyElsewhere e.2) := by
  rw [errands, errands, List.map_filterMap]
  refine congrArg (List.filterMap · hands) (funext fun h => ?_)
  rw [apply_ite (Option.map _), errand?_apply]
  rfl

theorem copies_apply (d : Desk) (i i' : Nat) (w : Write) : (d.apply i w).copies[i']? =
    (d.copies[i']?).map fun c =>
      { c with value := if i' = i then w.applyTo c.value else w.applyElsewhere c.value } := by
  rw [apply, List.getElem?_mapIdx]

/-- Hands that do not get into each other's way: the writes into a copy are of containers that are
its own, and occur neither in other copies nor in what is handed to them. -/
structure IsOrderly (W : Nat → Nat → Prop) (d : Desk) (hands : List (Nat × Nat)) : Prop where
  ready : ∀ h ∈ hands, (d.errand? h.1).isSome
  writes {i : Nat} {c : WorkingCopy} : d.copies[i]? = some c →
    WritesIn (W i) c.value (d.errands i hands)
  copies {i i' : Nat} {c : WorkingCopy} : d.copies[i]? = some c → i' ≠ i →
    ∀ n ∈ c.value.marks, ¬ W i' n
  errands {i i' : Nat} {c : WorkingCopy} : d.copies[i]? = some c → i' ≠ i →
    ∀ e ∈ d.errands i hands, ∀ n ∈ e.2.marks, ¬ W i' n

variable {W : Nat → Nat → Prop} {j : Nat} {rest : List (Nat × Nat)}

theorem errands_cons_self {e : String × Value} (h : d.errand? j = some e) (i : Nat)
    (rest : List (Nat × Nat)) :
    d.errands i ((j, i) :: rest) = e :: d.errands i rest := by
  rw [errands, List.filterMap_cons, if_pos rfl, h]
  rfl

theorem errands_cons_other {i' : Nat} (h : i' ≠ i) :
    d.errands i' ((j, i) :: rest) = d.errands i' rest := by
  rw [errands, List.filterMap_cons, if_neg (Ne.symm h)]
  rfl

theorem hand_eq_put {e : String × Value} (h : d.errand? j = some e) :
    d.hand j i = d.put i e.1 e.2 := by
  rw [errand?] at h
  rw [hand]
  split at h
  · next hr =>
    obtain rfl := Option.some.inj h
    rw [hr]
    rfl
  · cases h

theorem hand_of_write {e : String × Value} {c : WorkingCopy} (he : d.errand? j = some e)
    (hc : d.copies[i]? = some c) (hw : Path.write? e.1 c.value e.2 = .ok (some w)) :
    d.hand j i = d.apply i w := by
  rw [hand_eq_put he, put, hc]
  dsimp only
  rw [hw]

theorem hand_of_skip {e : String × Value} {c : WorkingCopy} (he : d.errand? j = some e)
    (hc : d.copies[i]? = some c) (hw : ∀ w, Path.write? e.1 c.value e.2 ≠ .ok (some w)) :
    d.hand j i = d := by
  rw [hand_eq_put he, put, hc]
  dsimp only
  split
  · next w h => exact absurd h (hw w)
  · rfl

theorem hand_of_no_copy {e : String × Value} (he : d.errand? j = some e)
    (hc : d.copies[i]? = none) : d.hand j i = d := by
  rw [hand_eq_put he, put, hc]

/-- Desks on which each copy is the same after what is still handed to it. -/
structure LeadsTo (d : Desk) (hands : List (Nat × Nat)) (d' : Desk) (hands' : List (Nat × Nat)) :
    Prop where
  faults : d'.faults = d.faults
  length : d'.copies.length = d.copies.length
  copies {i : Nat} {c : WorkingCopy} : d.copies[i]? = some c →
    ∃ c' : WorkingCopy, d'.copies[i]? = some c' ∧ c'.call = c.call ∧
      c'.value.receive (d'.errands i hands') = c.value.receive (d.errands i hands)

namespace IsOrderly

variable {e : String × Value} {c₀ : WorkingCopy}

/-- A hand without a write leaves the others orderly. -/
theorem of_skip (h : d.IsOrderly W ((j, i) :: rest)) (he : d.errand? j = some e)
    (hskip : ∀ c, d.copies[i]? = some c → WritesIn (W i) c.value (d.errands i rest) ∧
      c.value.receive (d.errands i rest) = c.value.receive (d.errands i ((j, i) :: rest))) :
    d.IsOrderly W rest ∧ d.LeadsTo ((j, i) :: rest) d rest := by
  have hmem : ∀ {i' e'}, e' ∈ d.errands i' rest → e' ∈ d.errands i' ((j, i) :: rest) := by
    intro i' e' he'
    by_cases heq : i' = i
    · subst heq
      rw [errands_cons_self he i' rest]
      exact List.mem_cons_of_mem _ he'
    · rwa [errands_cons_other heq]
  refine ⟨⟨fun h' hh => h.ready h' (List.mem_cons_of_mem _ hh), fun {i' c} hc => ?_, h.copies,
    fun hc hk e' he' => h.errands hc hk e' (hmem he')⟩, ⟨rfl, rfl, fun {i' c} hc => ?_⟩⟩
  · by_cases heq : i' = i
    · subst heq
      exact (hskip c hc).1
    · exact errands_cons_other heq ▸ h.writes hc
  · refine ⟨c, hc, rfl, ?_⟩
    by_cases heq : i' = i
    · subst heq
      exact (hskip c hc).2
    · rw [errands_cons_other heq]

/-- A write for one copy shows in nothing of the others. -/
theorem avoids (h : d.IsOrderly W ((j, i) :: rest)) (hW : ∀ n, w.before.mark = some n → W i n)
    {i' : Nat} {c : WorkingCopy} (hne : i' ≠ i) (hc : d.copies[i']? = some c) :
    w.applyElsewhere c.value = c.value ∧
      (d.apply i w).errands i' rest = d.errands i' ((j, i) :: rest) := by
  constructor
  · exact Write.applyElsewhere_of_avoids fun n hn hmem => h.copies hc (Ne.symm hne) n hmem (hW n hn)
  · rw [errands_apply, errands_cons_other hne]
    refine (List.map_congr_left fun e hmem => ?_).trans (List.map_id _)
    refine Prod.ext rfl (Write.applyElsewhere_of_avoids fun n hn hmark => ?_)
    have hmem : e ∈ d.errands i' ((j, i) :: rest) := by rwa [errands_cons_other hne]
    exact h.errands hc (Ne.symm hne) e hmem n hmark (hW n hn)

/-- A copy of the desk after a write is the one that was written into, or as it was before. -/
theorem copy_cases (h : d.IsOrderly W ((j, i) :: rest)) (hcopy : d.copies[i]? = some c₀)
    (hW : ∀ n, w.before.mark = some n → W i n) {i' : Nat} {c' : WorkingCopy}
    (hc' : (d.apply i w).copies[i']? = some c') :
    (i' = i ∧ c'.value = w.applyTo c₀.value) ∨
      i' ≠ i ∧ ∃ c, d.copies[i']? = some c ∧ c'.value = c.value := by
  rw [copies_apply] at hc'
  obtain ⟨c, hc, rfl⟩ := Option.map_eq_some_iff.mp hc'
  by_cases hne : i' = i
  · subst hne
    obtain rfl := Option.some.inj (hcopy.symm.trans hc)
    exact .inl ⟨rfl, if_pos rfl⟩
  · exact .inr ⟨hne, c, hc, (if_neg hne).trans (h.avoids hW hne hc).1⟩

/-- A write leaves each copy as it is after all hands, the written one included. -/
theorem leadsTo_write (h : d.IsOrderly W ((j, i) :: rest)) (he : d.errand? j = some e)
    (hcopy : d.copies[i]? = some c₀) (hw : Path.write? e.1 c₀.value e.2 = .ok (some w))
    (hW : ∀ n, w.before.mark = some n → W i n) :
    d.LeadsTo ((j, i) :: rest) (d.apply i w) rest := by
  refine ⟨rfl, by rw [Desk.apply, List.length_mapIdx], fun {i' c} hc => ?_⟩
  refine ⟨_, (copies_apply d i i' w).trans (congrArg (Option.map _) hc), rfl, ?_⟩
  dsimp only
  by_cases hne : i' = i
  · subst hne
    obtain rfl := Option.some.inj (hcopy.symm.trans hc)
    rw [errands_cons_self he i' rest, Value.receive_write hw, errands_apply, if_pos rfl]
  · rw [(h.avoids hW hne hc).2, if_neg hne, (h.avoids hW hne hc).1]

/-- A hand with a write leaves the others orderly. -/
theorem of_write (h : d.IsOrderly W ((j, i) :: rest)) (he : d.errand? j = some e)
    (hcopy : d.copies[i]? = some c₀) (hw : Path.write? e.1 c₀.value e.2 = .ok (some w))
    (hW : ∀ n, w.before.mark = some n → W i n)
    (hrest : WritesIn (W i) (w.applyTo c₀.value)
      ((d.errands i rest).map fun e => (e.1, w.applyElsewhere e.2))) :
    (d.apply i w).IsOrderly W rest := by
  have hself := errands_cons_self he i rest
  have hafter : ∀ n ∈ w.after.marks, ∀ k, k ≠ i → ¬ W k n := fun n hn k hk => by
    rcases (Path.mem_marks_of_write? hw).2 hn with hn | hn
    · exact h.copies hcopy hk n hn
    · exact h.errands hcopy hk e (hself ▸ List.mem_cons_self ..) n hn
  constructor
  case ready =>
    intro h' hh
    rw [errand?_apply, Option.isSome_map]
    exact h.ready h' (List.mem_cons_of_mem _ hh)
  case writes =>
    intro i' c' hc'
    rcases h.copy_cases hcopy hW hc' with ⟨rfl, hvalue⟩ | ⟨hne, c, hc, hvalue⟩
    · rw [hvalue, errands_apply]
      exact hrest
    · rw [hvalue, (h.avoids hW hne hc).2]
      exact h.writes hc
  case copies =>
    intro i' k c' hc' hk n hn
    rcases h.copy_cases hcopy hW hc' with ⟨rfl, hvalue⟩ | ⟨hne, c, hc, hvalue⟩
    · rcases Write.mem_marks_applyTo (hvalue ▸ hn) with hn | hn
      · exact h.copies hcopy hk n hn
      · exact hafter n hn k hk
    · exact h.copies hc hk n (hvalue ▸ hn)
  case errands =>
    intro i' k c' hc' hk e' hmem n hn
    rcases h.copy_cases hcopy hW hc' with ⟨rfl, -⟩ | ⟨hne, c, hc, -⟩
    · rw [errands_apply] at hmem
      obtain ⟨e₁, hmem₁, rfl⟩ := List.mem_map.mp hmem
      rcases Write.mem_marks_applyElsewhere hn with hn | hn
      · exact h.errands hcopy hk e₁ (hself ▸ List.mem_cons_of_mem _ hmem₁) n hn
      · exact hafter n hn k hk
    · exact h.errands hc hk e' ((h.avoids hW hne hc).2 ▸ hmem) n hn

/-- **One of orderly hands leaves the others orderly**, and each copy as it is after all of them. -/
theorem hand (h : d.IsOrderly W ((j, i) :: rest)) :
    (d.hand j i).IsOrderly W rest ∧ d.LeadsTo ((j, i) :: rest) (d.hand j i) rest := by
  obtain ⟨e, he⟩ := Option.isSome_iff_exists.mp (h.ready _ (List.mem_cons_self ..))
  have hself := errands_cons_self he i rest
  cases hcopy : d.copies[i]? with
  | none =>
    rw [hand_of_no_copy he hcopy]
    exact h.of_skip he fun c hc => by rw [hcopy] at hc; cases hc
  | some c₀ =>
    have hwrites : WritesIn (W i) c₀.value ((e.1, e.2) :: d.errands i rest) :=
      hself ▸ h.writes hcopy
    cases hwrites with
    | skip hno hrest =>
      rw [hand_of_skip he hcopy hno]
      refine h.of_skip he fun c hc => ?_
      obtain rfl := Option.some.inj (hcopy.symm.trans hc)
      exact ⟨hrest, hself ▸ (Value.receive_skip hno).symm⟩
    | write hw hW hrest =>
      rw [hand_of_write he hcopy hw]
      exact ⟨h.of_write he hcopy hw hW hrest, h.leadsTo_write he hcopy hw hW⟩

end IsOrderly

/-- **Orderly hands leave each copy as its own errands do.** -/
theorem copies_handAll (hands : List (Nat × Nat)) : ∀ {d : Desk}, d.IsOrderly W hands →
    (d.handAll hands).faults = d.faults ∧
    (d.handAll hands).copies =
      d.copies.mapIdx fun i c => { c with value := c.value.receive (d.errands i hands) } := by
  induction hands with
  | nil =>
    intro d _
    refine ⟨rfl, List.ext_getElem? fun i => ?_⟩
    rw [List.getElem?_mapIdx, handAll, List.foldl_nil]
    cases d.copies[i]? with
    | none => rfl
    | some c => rw [Option.map_some, errands, List.filterMap_nil, Value.receive]
  | cons h rest ih =>
    intro d horderly
    obtain ⟨hrest, hleads⟩ := horderly.hand
    obtain ⟨hfaults, hcopies⟩ := ih hrest
    refine ⟨hfaults.trans hleads.faults, hcopies.trans (List.ext_getElem? fun i => ?_)⟩
    rw [List.getElem?_mapIdx, List.getElem?_mapIdx]
    cases hc : d.copies[i]? with
    | none =>
      rw [List.getElem?_eq_none_iff, ← hleads.length, ← List.getElem?_eq_none_iff] at hc
      rw [hc]
      rfl
    | some c =>
      obtain ⟨c', hc', hcall, hvalue⟩ := hleads.copies hc
      rw [hc', Option.map_some, Option.map_some, hvalue, hcall]

end Desk

end Verdict
