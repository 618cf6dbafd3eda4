import Verdict.Proofs.Mutation.Fields
import Verdict.Proofs.Mutation.Owned

/-!
# Proofs/Mutation/Beside — a desk with more copies beside its own

    d.beside more:   copies of d │ more copies
    runs of d   ◂────── wait ────┴── wait too

More copies beside those of a desk start no runs, and wait for those that there are.  Where each copy
has containers of its own, what happens to a copy of the desk happens as it does without the others
(`Desk.lookUps_beside_left`, `Desk.hands_beside_left`), and what happens to one of the others leaves
the desk as it is (`Desk.lookUps_beside_right`, `Desk.hands_beside_right`).
-/

namespace Verdict

namespace Desk

/-- A desk with more copies beside its own, that wait for its runs. -/
def beside (d : Desk) (more : List WorkingCopy) (waiting : CacheKey → List Nat) : Desk :=
  { d with
    copies := d.copies ++ more
    runs := d.runs.map fun r => { r with copies := r.copies ++ waiting r.key } }

/-- The copies of a desk, and those beside it, have containers of their own. -/
structure Parted (own owns : Nat → Nat → Prop) : Prop where
  inside {i j n : Nat} : own i n → own j n → i = j
  apart {i e n : Nat} : own i n → ¬ owns e n
  beside {e e' n : Nat} : owns e n → owns e' n → e = e'

/-- Copies beside a desk that hold containers of their own, and such as are held for all. -/
def AreOwned (owns : Nat → Nat → Prop) (held : List Nat) (more : List WorkingCopy) : Prop :=
  ∀ e x, more[e]? = some x → ∀ n ∈ x.value.marks, owns e n ∨ n ∈ held

variable {own owns : Nat → Nat → Prop} {kept : List Nat} {d : Desk} {more : List WorkingCopy}
  {waiting : CacheKey → List Nat} {i j e : Nat} {c x : WorkingCopy}
  {name : String} {v : Value} {w : Write} {r : Run}

theorem getElem?_beside_left (h : d.copies[i]? = some c) :
    (d.beside more waiting).copies[i]? = some c :=
  (List.getElem?_append_left (List.getElem?_eq_some_iff.mp h).1).trans h

theorem getElem?_beside_right (e : Nat) :
    (d.beside more waiting).copies[d.copies.length + e]? = more[e]? := by
  rw [beside, List.getElem?_append_right (Nat.le_add_right ..), Nat.add_sub_cancel_left]

theorem getElem?_runs_beside (h : d.runs[j]? = some r) : (d.beside more waiting).runs[j]? =
    some { r with copies := r.copies ++ waiting r.key } := by
  rw [beside, List.getElem?_map, h, Option.map_some]

/-! ## What is put into a copy of the desk -/

theorem apply_beside_left (hi : i < d.copies.length)
    (hmore : ∀ x ∈ more, w.applyElsewhere x.value = x.value) :
    (d.beside more waiting).apply i w = (d.apply i w).beside more waiting := by
  refine (Desk.mk.injEq ..).mpr ⟨?_, ?_, rfl, rfl, rfl⟩
  · dsimp only [beside, apply]
    rw [List.mapIdx_append]
    refine congrArg _ (List.ext_getElem? fun e => ?_)
    rw [List.getElem?_mapIdx]
    cases hx : more[e]? with
    | none => rfl
    | some x =>
      rw [Option.map_some, if_neg (by omega), hmore x (List.mem_of_getElem? hx)]
  · dsimp only [beside, apply]
    rw [List.map_map, List.map_map]
    rfl

/-- **What is put into a copy of the desk is put in as without the others.** -/
theorem put_beside_left (hparted : Parted own owns) (hmore : AreOwned owns (d.held kept) more)
    (hc : d.copies[i]? = some c)
    (hapart : c.value.AcceptsIn (fun n => own i n ∧ n ∉ d.held kept) name v) :
    (d.beside more waiting).put i name v = (d.put i name v).beside more waiting := by
  rw [put, put, getElem?_beside_left hc, hc]
  dsimp only
  rcases hwrite : Path.write? name c.value v with f | (_ | w)
  · rfl
  · rfl
  · obtain ⟨p, hp, hown, hheld⟩ := hapart w hwrite
    refine apply_beside_left (List.getElem?_eq_some_iff.mp hc).1 fun x hx => ?_
    obtain ⟨e, he⟩ := List.getElem?_of_mem hx
    refine Write.applyElsewhere_of_not_mem hp fun hmem => ?_
    exact (hmore e x he p hmem).elim (hparted.apart hown) hheld

/-! ## What is put into a copy beside the desk -/

theorem apply_beside_right {p : Nat} (h : d.IsOwned own kept) (hp : w.before.mark = some p)
    (hown : ∀ i, ¬ own i p) (hheld : p ∉ d.held kept) (hx : more[e]? = some x)
    (hmore : ∀ {t x'}, e ≠ t → more[t]? = some x' → p ∉ x'.value.marks) :
    (d.beside more waiting).apply (d.copies.length + e) w =
      d.beside (more.set e { x with value := w.applyTo x.value }) waiting := by
  have hother : ¬ ((∃ i, own i p) ∨ p ∈ d.held kept) := fun hmem =>
    hmem.elim (fun hi => hi.elim hown) hheld
  have hcache := h.cache_elsewhere hp hheld
  refine (Desk.mk.injEq ..).mpr ⟨?_, ?_, hcache, rfl, rfl⟩
  · dsimp only [beside]
    rw [List.mapIdx_append]
    refine congr (congrArg _ (List.ext_getElem? fun t => ?_)) (List.ext_getElem? fun t => ?_) <;>
      rw [List.getElem?_mapIdx]
    · cases hc : d.copies[t]? with
      | none => rfl
      | some c =>
        have hlt := (List.getElem?_eq_some_iff.mp hc).1
        rw [Option.map_some, if_neg (by omega), Write.applyElsewhere_of_not_mem hp fun hmem => hother ?_]
        exact (h.copies hc p hmem).imp_left fun hi => ⟨t, hi⟩
    · rw [List.getElem?_set]
      by_cases ht : e = t
      · subst ht
        rw [hx, if_pos rfl, if_pos (List.getElem?_eq_some_iff.mp hx).1, Option.map_some,
          if_pos (Nat.add_comm ..)]
      · rw [if_neg ht]
        cases hx' : more[t]? with
        | none => rfl
        | some x' =>
          rw [Option.map_some, if_neg (by omega), Write.applyElsewhere_of_not_mem hp (hmore ht hx')]
  · dsimp only [beside]
    rw [List.map_map]
    refine List.map_congr_left fun r hr => ?_
    dsimp only [Function.comp_apply]
    rw [outcome_elsewhere hp hheld hr,
      Write.applyElsewhere_of_not_mem hp fun hmem => hother (h.inputs r hr p hmem)]

/-- **What is put into a copy beside the desk shows in that copy alone.** -/
theorem put_beside_right (hparted : Parted own owns) (h : d.IsOwned own kept)
    (hmore : AreOwned owns (d.held kept) more) (hheld : ∀ {e n}, owns e n → n ∉ d.held kept)
    (hx : more[e]? = some x) (hapart : x.value.AcceptsIn (owns e) name v) :
    (d.beside more waiting).put (d.copies.length + e) name v =
      d.beside (more.set e { x with value := x.value.accept name v }) waiting := by
  rw [put, getElem?_beside_right, hx]
  dsimp only
  rcases x.value.accept_cases name v with ⟨w, hw, heq⟩ | ⟨hskip, heq⟩ <;> rw [heq]
  · obtain ⟨p, hp, howns⟩ := hapart w hw
    rw [hw]
    exact apply_beside_right h hp (fun i hi => hparted.apart hi howns) (hheld howns) hx
      fun ht hx' hmem => (hmore _ _ hx' p hmem).elim
        (fun ht' => ht (hparted.beside howns ht')) (hheld howns)
  · rw [set_of_getElem? hx]
    split
    · next w hw => exact absurd hw (hskip w)
    · rfl

/-! ## Look-ups -/

open Verdict.Field

variable {f : String × Transform} {ts : List (String × Transform)}

theorem beside_none (d : Desk) (more : List WorkingCopy) :
    d.beside more (fun _ => []) = { d with copies := d.copies ++ more } := by
  refine (Desk.mk.injEq ..).mpr ⟨rfl, (List.map_congr_left fun r _ => ?_).trans (List.map_id _),
    rfl, rfl, rfl⟩
  rw [List.append_nil]
  rfl

theorem faultsOf_of_error {root : Value} {fault : Fault} (cache : List (CacheKey × Value))
    (h : lookUp? root f = .error fault) : faultsOf (browse cache root [f]).2 = [fault] := by
  rw [browse_of_error cache h]
  rfl

/-- A look-up of a copy of the desk is done as without the others. -/
theorem ask_beside_left (hparted : Parted own owns) (h : d.IsOwned own kept)
    (hmore : AreOwned owns (d.held kept) more) (hc : d.copies[i]? = some c)
    (hfaults : faultsOf (browse d.cache c.value [f]).2 = []) (hapart : d.LooksApart kept (i, f)) :
    (d.beside more fun _ => []).ask (i, f) = (d.ask (i, f)).beside more fun _ => [] := by
  have hbrowsed := (h.ask hparted.inside hc hapart).apart
  rw [ask_of_copy hc, ask_of_copy (getElem?_beside_left hc)]
  cases hlook : lookUp? c.value f with
  | error fault =>
    rw [faultsOf_of_error d.cache hlook] at hfaults
    cases hfaults
  | ok q? =>
    cases q? with
    | none => rfl
    | some q =>
      have hcache : (d.beside more fun _ => []).cache = d.cache := rfl
      dsimp only
      rw [hcache]
      cases hkept : Entries.find? q.1 d.cache with
      | some v => exact put_beside_left hparted hmore hc ((browsesIn_of_kept hlook hkept).mp hbrowsed).1
      | none =>
        dsimp only
        rw [beside_none, beside_none]

/-- **The look-ups of a copy of the desk are done as without the others.** -/
theorem lookUps_beside_left (hparted : Parted own owns) (ts : List (String × Transform)) :
    ∀ {d : Desk} {c : WorkingCopy}, d.IsOwned own kept → AreOwned owns (d.held kept) more →
    d.copies[i]? = some c → faultsOf (browse d.cache c.value ts).2 = [] →
    (∀ s ∈ trace ask d (ts.map (Prod.mk i)), s.1.LooksApart kept s.2) →
    (ts.map (Prod.mk i)).foldl ask (d.beside more fun _ => []) =
      ((ts.map (Prod.mk i)).foldl ask d).beside more fun _ => [] := by
  induction ts with
  | nil => exact fun _ _ _ _ _ => rfl
  | cons f rest ih =>
    intro d c h hmore hc hfaults htrace
    obtain ⟨hfirst, hrest⟩ := List.forall_mem_cons.mp htrace
    rw [browse_cons, faultsOf_append, List.append_eq_nil_iff] at hfaults
    have hasked := h.ask hparted.inside hc hfirst
    rw [List.map_cons, List.foldl_cons, List.foldl_cons,
      ask_beside_left hparted h hmore hc hfaults.1 hfirst]
    have hc' : (d.ask (i, f)).copies[i]? =
        some { c with value := (browse d.cache c.value [f]).1 } := by
      rw [hasked.copies, List.getElem?_set_self (List.getElem?_eq_some_iff.mp hc).1]
    exact ih hasked.owned (hasked.held ▸ hmore) hc' (hasked.cache ▸ hfaults.2) hrest

/-- A copy that waits for keys, one after another. -/
def joined (waiting : CacheKey → List Nat) (i : Nat) (keys : List CacheKey) (key : CacheKey) :
    List Nat :=
  waiting key ++ List.replicate (keys.count key) i

theorem joined_nil (waiting : CacheKey → List Nat) (i : Nat) : joined waiting i [] = waiting :=
  funext fun key => List.append_nil (waiting key)

theorem joined_append (waiting : CacheKey → List Nat) (i : Nat) (keys keys' : List CacheKey) :
    joined waiting i (keys ++ keys') = joined (joined waiting i keys) i keys' := funext fun key => by
  rw [joined, joined, joined, List.count_append, List.append_assoc, List.replicate_append_replicate]

/-- A copy beside the desk waits for a run. -/
theorem enroll_beside (more : List WorkingCopy) (waiting : CacheKey → List Nat)
    {q : CacheKey × Field} (hkeys : (d.runs.map Run.key).Nodup) (hq : q.1 ∈ d.runs.map Run.key) :
    { d.beside more waiting with runs := enroll i q (d.beside more waiting).runs } =
      d.beside more (joined waiting i [q.1]) := by
  obtain ⟨r, hr, hkey⟩ := List.mem_map.mp hq
  obtain ⟨before, after, hruns⟩ := List.append_of_mem hr
  rw [hruns, List.map_append, List.map_cons, List.nodup_append] at hkeys
  have hbefore : ∀ r' ∈ before, r'.key ≠ q.1 := fun r' hr' =>
    hkey ▸ hkeys.2.2 _ (List.mem_map_of_mem hr') _ (List.mem_cons_self ..)
  have hafter : ∀ r' ∈ after, r'.key ≠ q.1 := fun r' hr' heq =>
    (List.nodup_cons.mp hkeys.2.1).1 (hkey.trans heq.symm ▸ List.mem_map_of_mem hr')
  have hothers : ∀ runs : List Run, (∀ r ∈ runs, r.key ≠ q.1) →
      (runs.map fun r => { r with copies := r.copies ++ waiting r.key }) =
        runs.map fun r => { r with copies := r.copies ++ joined waiting i [q.1] r.key } :=
    fun runs hruns => List.map_congr_left fun r hr => by
      rw [joined, List.count_singleton, if_neg (by simpa using (hruns r hr).symm), List.replicate_zero,
        List.append_nil]
  have hself : joined waiting i [q.1] r.key = waiting r.key ++ [i] := by
    rw [joined, hkey, List.count_singleton_self, List.replicate_one]
  refine (Desk.mk.injEq ..).mpr ⟨rfl, ?_, rfl, rfl, rfl⟩
  dsimp only [beside]
  rw [hruns, List.map_append, List.map_cons, hothers before hbefore, hothers after hafter,
    enroll_joined (r := { r with copies := r.copies ++ waiting r.key }) _ hkey, List.map_append,
    List.map_cons, hself, List.append_assoc]
  intro r' hr'
  obtain ⟨r'', hr'', rfl⟩ := List.mem_map.mp hr'
  exact hbefore r'' hr''

/-- A look-up of a copy beside the desk comes to what the copy comes to by itself. -/
theorem ask_beside_right (hparted : Parted own owns) (h : d.IsOwned own kept)
    (hmore : AreOwned owns (d.held kept) more) (hheld : ∀ {e n}, owns e n → n ∉ d.held kept)
    (hkeys : (d.runs.map Run.key).Nodup) (hx : more[e]? = some x)
    (hfaults : faultsOf (browse d.cache x.value [f]).2 = [])
    (hruns : ∀ key ∈ keysOf (browse d.cache x.value [f]).2, key ∈ d.runs.map Run.key)
    (hapart : BrowsesIn (owns e) d.cache x.value [f]) :
    (d.beside more waiting).ask (d.copies.length + e, f) =
      d.beside (more.set e { x with value := (browse d.cache x.value [f]).1 })
        (joined waiting (d.copies.length + e) (keysOf (browse d.cache x.value [f]).2)) := by
  rw [ask_of_copy ((getElem?_beside_right e).trans hx)]
  cases hlook : lookUp? x.value f with
  | error fault =>
    rw [faultsOf_of_error d.cache hlook] at hfaults
    cases hfaults
  | ok q? =>
    cases q? with
    | none =>
      rw [browse_of_none d.cache hlook]
      dsimp only [browse]
      rw [set_of_getElem? hx]
      exact congrArg (d.beside more) (joined_nil ..).symm
    | some q =>
      have hcache : (d.beside more waiting).cache = d.cache := rfl
      dsimp only
      rw [hcache]
      cases hkept : Entries.find? q.1 d.cache with
      | some v =>
        rw [browse_of_kept hlook hkept]
        refine (put_beside_right hparted h hmore hheld hx
          ((browsesIn_of_kept hlook hkept).mp hapart).1).trans ?_
        exact congrArg (d.beside _) (joined_nil ..).symm
      | none =>
        rw [browse_of_waits hlook hkept] at hruns ⊢
        dsimp only [browse] at hruns ⊢
        rw [set_of_getElem? hx]
        exact enroll_beside more waiting hkeys (hruns q.1 (List.mem_singleton_self _))

theorem AreOwned.set (hmore : AreOwned owns (d.held kept) more) (hx : more[e]? = some x)
    (hv : ∀ n ∈ v.marks, n ∈ x.value.marks ∨ n ∈ d.held kept) :
    AreOwned owns (d.held kept) (more.set e { x with value := v }) := fun e' x' hx' n hn => by
  rw [List.getElem?_set] at hx'
  split at hx'
  · next heq =>
    subst heq
    rw [if_pos (List.getElem?_eq_some_iff.mp hx).1] at hx'
    obtain rfl := Option.some.inj hx'
    exact (hv n hn).elim (hmore e x hx n) .inr
  · exact hmore e' x' hx' n hn

/-- **The look-ups of a copy beside the desk come to what the copy comes to by itself.** -/
theorem lookUps_beside_right (hparted : Parted own owns) (h : d.IsOwned own kept)
    (hheld : ∀ {e n}, owns e n → n ∉ d.held kept) (hkeys : (d.runs.map Run.key).Nodup)
    (ts : List (String × Transform)) : ∀ {more : List WorkingCopy} {waiting : CacheKey → List Nat}
    {x : WorkingCopy}, AreOwned owns (d.held kept) more → more[e]? = some x →
    faultsOf (browse d.cache x.value ts).2 = [] →
    (∀ key ∈ keysOf (browse d.cache x.value ts).2, key ∈ d.runs.map Run.key) →
    BrowsesIn (owns e) d.cache x.value ts →
    (ts.map (Prod.mk (d.copies.length + e))).foldl ask (d.beside more waiting) =
      d.beside (more.set e { x with value := (browse d.cache x.value ts).1 })
        (joined waiting (d.copies.length + e) (keysOf (browse d.cache x.value ts).2)) := by
  induction ts with
  | nil =>
    intro more waiting x _ hx _ _ _
    dsimp only [browse]
    rw [set_of_getElem? hx]
    exact congrArg (d.beside more) (joined_nil ..).symm
  | cons f rest ih =>
    intro more waiting x hmore hx hfaults hruns hapart
    obtain ⟨hfirst, hrest⟩ := browsesIn_cons.mp hapart
    rw [browse_cons] at hfaults hruns ⊢
    rw [faultsOf_append, List.append_eq_nil_iff] at hfaults
    rw [keysOf_append, List.forall_mem_append] at hruns
    dsimp only
    rw [List.map_cons, List.foldl_cons,
      ask_beside_right hparted h hmore hheld hkeys hx hfaults.1 hruns.1 hfirst]
    have hx' : (more.set e { x with value := (browse d.cache x.value [f]).1 })[e]? =
        some { x with value := (browse d.cache x.value [f]).1 } :=
      List.getElem?_set_self (List.getElem?_eq_some_iff.mp hx).1
    rw [ih (hmore.set hx fun n => mem_marks_browse h.cache [f]) hx' hfaults.2 hruns.2 hrest, List.set_set,
      keysOf_append, joined_append]

/-! ## Applying, keeping and handing -/

/-- A run is applied as without the others, where a copy of the desk has started it. -/
theorem compute_beside (hcopies : ∀ r ∈ d.runs, ∀ i ∈ r.copies, i < d.copies.length)
    (hwaiting : ∀ r ∈ d.runs, r.copies = [] → waiting r.key = []) :
    (d.beside more waiting).compute j = (d.compute j).beside more waiting := by
  cases hr : d.runs[j]? with
  | none => rw [compute, compute, beside, List.getElem?_map, hr]; rfl
  | some r =>
    have hmem := List.mem_of_getElem? hr
    have hcriteria : Run.criteria (d.copies ++ more) { r with copies := r.copies ++ waiting r.key } =
        r.criteria d.copies := by
      rw [Run.criteria, Run.criteria]
      dsimp only
      cases hheads : r.copies with
      | nil => rw [hwaiting r hmem hheads]; rfl
      | cons i rest =>
        have hi : i < d.copies.length := hcopies r hmem i (hheads ▸ List.mem_cons_self ..)
        rw [List.cons_append, List.head?_cons, List.head?_cons, Option.bind_some, Option.bind_some,
          List.getElem?_append_left hi]
    have happlied : Run.applied (d.copies ++ more) d.nextMark
        { r with copies := r.copies ++ waiting r.key } =
        ({ (r.applied d.copies d.nextMark).1 with
            key := r.key
            copies := r.copies ++ waiting r.key }, (r.applied d.copies d.nextMark).2) := by
      rw [Run.applied, Run.applied, hcriteria]
      dsimp only
      cases r.transform.apply r.input (r.criteria d.copies) <;> rfl
    rw [compute_eq hr, compute_eq (getElem?_runs_beside hr)]
    refine (Desk.mk.injEq ..).mpr ⟨rfl, ?_, rfl, ?_, rfl⟩
    · dsimp only [beside]
      rw [happlied, List.map_set, Run.applied_key, Run.applied_copies]
    · dsimp only [beside]
      rw [happlied]

theorem keep_beside : (d.beside more waiting).keep j = (d.keep j).beside more waiting := by
  rw [keep, keep, beside, List.getElem?_map]
  rcases d.runs[j]? with _ | ⟨key, t, copies, input, _ | (f | u)⟩ <;> rfl

/-- **A result is handed to copies of the desk as without the others.** -/
theorem hands_beside_left (hparted : Parted own owns) (l : List Nat) :
    ∀ {d : Desk} {r : Run}, d.IsOwned own kept → AreOwned owns (d.held kept) more →
    d.runs[j]? = some r → r.outcome = some (.ok v) → (∀ i ∈ l, i < d.copies.length) →
    (∀ s ∈ trace perform d (l.map (Deed.hand j)), s.1.HandsApart kept s.2) →
    l.foldl (fun d i => d.hand j i) (d.beside more waiting) =
      (l.foldl (fun d i => d.hand j i) d).beside more waiting := by
  induction l with
  | nil => exact fun _ _ _ _ _ _ => rfl
  | cons i rest ih =>
    intro d r h hmore hr hv hlt htrace
    obtain ⟨hfirst, hrest⟩ := List.forall_mem_cons.mp htrace
    obtain ⟨hi, hlt⟩ := List.forall_mem_cons.mp hlt
    have hc := List.getElem?_eq_getElem hi
    obtain ⟨⟨f, heq⟩, howned, haccepts⟩ := h.hand hparted.inside hr hv hc hfirst
    have hput : (d.beside more waiting).put i r.key.1 v = _ :=
      put_beside_left hparted hmore hc haccepts
    rw [List.foldl_cons, List.foldl_cons, hand_eq_put_outcome (getElem?_runs_beside hr) hv, hput,
      ← hand_eq_put_outcome hr hv]
    refine ih (r := { r with input := f r.input }) howned ?_ ?_ hv ?_ hrest
    · rwa [heq, held_revise]
    · rw [heq, revise, List.getElem?_map, hr, Option.map_some]
    · rwa [heq, revise, List.length_set]

/-- Copies after a value is put under a name in some of them, in each as often as it is told. -/
def accepted (name : String) (v : Value) (first : Nat) (l : List Nat) (more : List WorkingCopy) :
    List WorkingCopy :=
  more.mapIdx fun e x => { x with value := x.value.acceptTimes name v (l.count (first + e)) }

theorem getElem?_accepted (first : Nat) (l : List Nat) :
    (accepted name v first l more)[e]? = more[e]?.map fun x =>
      { x with value := x.value.acceptTimes name v (l.count (first + e)) } :=
  List.getElem?_mapIdx ..

/-- **A result is handed to copies beside the desk, and shows in these alone.** -/
theorem hands_beside_right (hparted : Parted own owns) (h : d.IsOwned own kept)
    (hheld : ∀ {e n}, owns e n → n ∉ d.held kept) (hr : d.runs[j]? = some r)
    (hv : r.outcome = some (.ok v)) (l : List Nat) : ∀ {more : List WorkingCopy},
    AreOwned owns (d.held kept) more →
    (∀ i ∈ l, ∃ e < more.length, i = d.copies.length + e) →
    (∀ e x, more[e]? = some x → ∀ k < l.count (d.copies.length + e),
      (x.value.acceptTimes r.key.1 v k).AcceptsIn (owns e) r.key.1 v) →
    l.foldl (fun d i => d.hand j i) (d.beside more waiting) =
      d.beside (accepted r.key.1 v d.copies.length l more) waiting := by
  induction l with
  | nil =>
    intro more _ _ _
    refine congrArg (d.beside · waiting) (List.ext_getElem? fun e => ?_)
    rw [getElem?_accepted]
    cases more[e]? <;> rfl
  | cons i rest ih =>
    intro more hmore hplaces hapart
    obtain ⟨⟨e, he, rfl⟩, hrest⟩ := List.forall_mem_cons.mp hplaces
    have hx := List.getElem?_eq_getElem he
    have hv' : ∀ n ∈ v.marks, n ∈ d.held kept := fun n hn =>
      mem_held_of_outcome (List.mem_of_getElem? hr) hv hn
    have hfirst := hapart e _ hx 0 (by rw [List.count_cons_self]; exact Nat.zero_lt_succ _)
    rw [List.foldl_cons, hand_eq_put_outcome (getElem?_runs_beside hr) hv,
      put_beside_right hparted h hmore hheld hx hfirst,
      ih (hmore.set hx fun n hn => (Value.mem_marks_accept hn).imp_right (hv' n)) (by rwa [List.length_set])
        fun e' x' hx' k hk => ?_]
    · refine congrArg (d.beside · waiting) (List.ext_getElem? fun e' => ?_)
      rw [getElem?_accepted, getElem?_accepted, List.getElem?_set]
      by_cases hne : e = e'
      · subst hne
        rw [if_pos rfl, if_pos he, hx, List.count_cons_self]
        rfl
      · rw [if_neg hne, List.count_cons_of_ne (by omega)]
    · rw [List.getElem?_set] at hx'
      by_cases hne : e = e'
      · subst hne
        rw [if_pos rfl, if_pos he] at hx'
        obtain rfl := Option.some.inj hx'
        have hlater := hapart e _ hx (k + 1) (by rw [List.count_cons_self]; omega)
        exact hlater
      · rw [if_neg hne] at hx'
        exact hapart e' x' hx' k (by rwa [List.count_cons_of_ne (by omega)])

end Desk

end Verdict
