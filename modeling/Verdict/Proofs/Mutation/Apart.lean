import Mathlib.Data.List.Pairwise
import Verdict.Proofs.Mutation.Delivery
import Verdict.Proofs.Path.Writable

/-!
# Proofs/Mutation/Apart — errands to places apart

    root ──receive errands──▸ root with each value in its place

Where the places of errands are apart, the containers around them occur once, and no value holds one of
them, a root receives the values as if each was put into its place alone (`Value.receive_apart`).  So
neither their order nor their marks matter (`Value.unmarked_receive_congr`).
-/

namespace Verdict

/-- Whether a path is written into the container of a mark. -/
def Path.IsInto (path : String) (root : Value) (p : Nat) : Prop :=
  ∃ outer slot c, place? path root = some (outer ++ [slot]) ∧ root.at? outer = some c ∧
    c.mark = some p

theorem Path.IsInto.mem_marks {path : String} {root : Value} {p : Nat} (h : IsInto path root p) :
    p ∈ root.marks := by
  obtain ⟨outer, slot, c, -, hc, hp⟩ := h
  have hcount := Value.count_marks_le_of_at? hc p
  exact List.count_pos_iff.mp (Nat.lt_of_lt_of_le (Value.one_le_count_of_mark hp) hcount)

theorem Path.IsInto.of_rename {path : String} {root : Value} {ρ : Nat → Nat} {p : Nat}
    (h : IsInto path (root.rename ρ) p) : ∃ p₀, IsInto path root p₀ ∧ p = ρ p₀ := by
  have hρ := Value.remarks_rename ρ
  obtain ⟨outer, slot, c, hplace, hc, hp⟩ := h
  rw [place?_remark hρ] at hplace
  rw [hρ.at?] at hc
  obtain ⟨c₀, hc₀, rfl⟩ := Option.map_eq_some_iff.mp hc
  rw [hρ.mark] at hp
  obtain ⟨p₀, hp₀, rfl⟩ := Option.map_eq_some_iff.mp hp
  exact ⟨p₀, ⟨outer, slot, c₀, hplace, hc₀, hp₀⟩, rfl⟩

namespace Value

/-- A root with a value in a place, if there is one. -/
def putIn (place? : Option Place) (v root : Value) : Value :=
  match place? with
  | some place => setAt v place root
  | none => root

/-- A root with values in places, one after another. -/
def putEach (place? : String → Option Place) (errands : List (String × Value)) (root : Value) :
    Value :=
  errands.foldl (fun root e => putIn (place? e.1) e.2 root) root

/-- Errands to places apart, or to none: the containers around them occur once, and none of the values
holds one of them. -/
structure ReceivesApart (W : Nat → Prop) (place? : String → Option Place) (root : Value)
    (errands : List (String × Value)) : Prop where
  places : ∀ e ∈ errands, Path.place? e.1 root = place? e.1
  readOnly : ∀ e ∈ errands, place? e.1 = none → Path.IsReadOnly e.1 root
  apart : errands.Pairwise fun e e' => ∀ s ∈ place? e.1, ∀ s' ∈ place? e'.1, s.Apart s'
  once : ∀ e ∈ errands, ∀ p, Path.IsInto e.1 root p → W p ∧ root.marks.count p = 1
  avoided : ∀ e ∈ errands, ∀ p, W p → p ∉ e.2.marks

variable {W : Nat → Prop} {place? : String → Option Place}

namespace ReceivesApart

variable {root v : Value} {name : String} {rest : List (String × Value)}

/-- What is not written leaves the other errands as they are. -/
theorem skip (h : ReceivesApart W place? root ((name, v) :: rest)) :
    ReceivesApart W place? root rest :=
  ⟨(List.forall_mem_cons.mp h.places).2, (List.forall_mem_cons.mp h.readOnly).2,
    (List.pairwise_cons.mp h.apart).2, (List.forall_mem_cons.mp h.once).2,
    (List.forall_mem_cons.mp h.avoided).2⟩

/-- Around a place that is apart from a filled one, the containers are as they were. -/
theorem isInto_setAt {path : String} {place other : Place} {inner : Value} {p : Nat}
    (hplace : Path.place? path root = some place) (hapart : other.Apart place)
    (hat : root.at? other = some inner) (hp : Path.IsInto path (setAt v other root) p) :
    Path.IsInto path root p ∧ inner.marks.count p < root.marks.count p := by
  obtain ⟨outer, slot, c, hplace', hc, hp⟩ := hp
  have heq : place = outer ++ [slot] :=
    Option.some.inj ((Path.place?_setAt v hplace hapart.symm).symm.trans hplace')
  have hnot : ¬ other <+: outer := fun hp => hapart.1 (heq ▸ hp.trans (List.prefix_append ..))
  obtain ⟨_, outer₁, _, c₁, _, heq₁, -, hc₁, -⟩ := Path.write?_of_place? v hplace
  obtain ⟨rfl, -⟩ := List.append_inj' (heq.symm.trans heq₁) rfl
  obtain ⟨c₂, hc₂, hmark⟩ := mark_at?_setAt (a := v) hc₁ hnot
  obtain rfl := Option.some.inj (hc.symm.trans hc₂)
  have hp₁ : c₁.mark = some p := hmark ▸ hp
  exact ⟨⟨outer, slot, c₁, heq ▸ hplace, hc₁, hp₁⟩, count_marks_lt_of_at? hat hc₁ hp₁ hnot⟩

/-- Around the places of the later errands, the containers are as they were before the first. -/
theorem isInto_later {place : Place} {inner : Value} (h : ReceivesApart W place? root ((name, v) :: rest))
    (hplace : place? name = some place) (hbelow : place ≠ []) (hat : root.at? place = some inner)
    {e : String × Value} (he : e ∈ rest) {p : Nat} (hp : Path.IsInto e.1 (setAt v place root) p) :
    Path.IsInto e.1 root p ∧ inner.marks.count p < root.marks.count p := by
  cases hs : place? e.1 with
  | none =>
    obtain ⟨_, _, _, hp, -⟩ := hp
    rw [((h.skip.readOnly e he hs).setAt v hbelow).place?_eq_none] at hp
    cases hp
  | some s =>
    have hs' := (h.skip.places e he).trans hs
    have hapart := (List.pairwise_cons.mp h.apart).1 e he _ hplace s hs
    exact isInto_setAt hs' hapart hat hp

/-- Once the first of errands to places apart is put into its place, the others are to places apart as
they were. -/
theorem filled {place : Place} {inner : Value} (h : ReceivesApart W place? root ((name, v) :: rest))
    (hplace : place? name = some place) (hbelow : place ≠ []) (hat : root.at? place = some inner) :
    ReceivesApart W place? (setAt v place root) rest where
  places := fun e he => by
    cases hs : place? e.1 with
    | none => exact ((h.skip.readOnly e he hs).setAt v hbelow).place?_eq_none
    | some s =>
      have hs' := (h.skip.places e he).trans hs
      have hapart := (List.pairwise_cons.mp h.apart).1 e he _ hplace s hs
      exact Path.place?_setAt v hs' hapart.symm
  readOnly := fun e he hnone => (h.skip.readOnly e he hnone).setAt v hbelow
  apart := h.skip.apart
  once := fun e he p hp => by
    obtain ⟨hp', hlt⟩ := h.isInto_later hplace hbelow hat he hp
    obtain ⟨hW, hone⟩ := h.skip.once e he p hp'
    refine ⟨hW, ?_⟩
    have hcount := count_marks_setAt hat v p
    have hzero : v.marks.count p = 0 :=
      List.count_eq_zero.mpr (h.avoided _ (List.mem_cons_self ..) p hW)
    omega
  avoided := h.skip.avoided

/-- What the first of errands to places apart does: it is put into its place, and the others are to
places apart as they were. -/
theorem write {place : Place} (h : ReceivesApart W place? root ((name, v) :: rest))
    (hplace : place? name = some place) :
    ∃ w, Path.write? name root v = .ok (some w) ∧
      (∀ p, w.before.mark = some p → Path.IsInto name root p) ∧
      w.applyTo root = setAt v place root ∧
      rest.map (fun e => (e.1, w.applyElsewhere e.2)) = rest ∧
      (∀ e ∈ rest, ∀ p, Path.IsInto e.1 (setAt v place root) p → Path.IsInto e.1 root p) ∧
      ReceivesApart W place? (setAt v place root) rest := by
  have hroot : Path.place? name root = some place :=
    (h.places _ (List.mem_cons_self ..)).trans hplace
  obtain ⟨ss, outer, slot, c, inner, rfl, houter, hc, hinner, hwrite⟩ := Path.write?_of_place? v hroot
  have hinto : ∀ p, c.mark = some p → Path.IsInto name root p := fun p hp =>
    ⟨outer, slot, c, hroot, hc, hp⟩
  have honce := h.once _ (List.mem_cons_self ..)
  have hat : root.at? (outer ++ [slot]) = some inner := at?_append hc (at?_cons hinner [])
  have hbelow : outer ++ [slot] ≠ [] := List.append_ne_nil_of_right_ne_nil _ (List.cons_ne_nil _ _)
  refine ⟨_, hwrite, hinto,
    Write.applyTo_eq_setAt houter hc hinner fun p hp => (honce p (hinto p hp)).2, ?_,
    fun e he p hp => (h.isInto_later hplace hbelow hat he hp).1, h.filled hplace hbelow hat⟩
  refine (List.map_congr_left fun e he => ?_).trans (List.map_id _)
  refine Prod.ext rfl (Write.applyElsewhere_of_avoids fun p hp => ?_)
  exact h.skip.avoided e he p (honce p (hinto p hp)).1

/-- After the first of errands to places apart, the others are to places apart as they were. -/
theorem drop {before after : List (String × Value)} : ∀ {root : Value},
    ReceivesApart W place? root (before ++ after) →
      (∀ e ∈ after, ∀ p, Path.IsInto e.1 (putEach place? before root) p → Path.IsInto e.1 root p) ∧
        ReceivesApart W place? (putEach place? before root) after := by
  induction before with
  | nil => exact fun h => ⟨fun _ _ _ hp => hp, h⟩
  | cons e rest ih =>
    intro root h
    rw [putEach, List.foldl_cons]
    cases hplace : place? e.1 with
    | none => exact ih h.skip
    | some place =>
      obtain ⟨_, -, -, -, -, hinto, hlater⟩ := h.write hplace
      obtain ⟨hinto', hafter⟩ := ih hlater
      exact ⟨fun e' he' p hp => hinto e' (List.mem_append_right _ he') p (hinto' e' he' p hp), hafter⟩

end ReceivesApart

/-- **A root receives errands to places apart as if each was put into its place alone**, and each of
them is written into a container around its place. -/
theorem receive_apart (errands : List (String × Value)) : ∀ {root : Value},
    ReceivesApart W place? root errands →
      root.receive errands = putEach place? errands root ∧ WritesIn W root errands := by
  induction errands with
  | nil =>
    intro root _
    exact ⟨by rw [receive]; rfl, .nil root⟩
  | cons e rest ih =>
    obtain ⟨name, v⟩ := e
    intro root h
    cases hplace : place? name with
    | none =>
      have hskip := (h.readOnly _ (List.mem_cons_self ..) hplace).write?_ne v
      obtain ⟨hreceive, hwrites⟩ := ih h.skip
      refine ⟨?_, .skip hskip hwrites⟩
      rw [receive_skip hskip, hreceive, putEach, putEach, List.foldl_cons, hplace]
      rfl
    | some place =>
      obtain ⟨w, hw, hinto, happly, hrest, -, hlater⟩ := h.write hplace
      obtain ⟨hreceive, hwrites⟩ := ih hlater
      constructor
      · rw [receive_write hw, happly, hrest, hreceive, putEach, putEach, List.foldl_cons, hplace]
        rfl
      · refine .write hw (fun p hp => (h.once _ (List.mem_cons_self ..) p (hinto p hp)).1) ?_
        rw [happly, hrest]
        exact hwrites

theorem unmarked_putEach (place? : String → Option Place) (errands : List (String × Value)) :
    ∀ root : Value, (putEach place? errands root).unmarked =
      putEach place? (errands.map fun e => (e.1, e.2.unmarked)) root.unmarked := by
  induction errands with
  | nil => exact fun _ => rfl
  | cons e rest ih =>
    intro root
    have hput : (putIn (place? e.1) e.2 root).unmarked =
        putIn (place? e.1) e.2.unmarked root.unmarked := by
      cases place? e.1 with
      | none => rfl
      | some s => exact remarks_unmarked.setAt ..
    refine (ih _).trans ?_
    rw [hput]
    rfl

/-- **Places apart can be filled in any order.** -/
theorem putEach_perm {errands errands' : List (String × Value)} (h : errands.Perm errands')
    (hapart : errands.Pairwise fun e e' => ∀ s ∈ place? e.1, ∀ s' ∈ place? e'.1, s.Apart s')
    (root : Value) : putEach place? errands root = putEach place? errands' root := by
  refine h.foldl_eq' (fun x hx y hy v => ?_) _
  by_cases hxy : x = y
  · rw [hxy]
  have hsymm : Std.Symm fun e e' : String × Value =>
      ∀ s ∈ place? e.1, ∀ s' ∈ place? e'.1, s.Apart s' :=
    ⟨fun _ _ hst s hs s' hs' => (hst s' hs' s hs).symm⟩
  have hboth := hapart.forall hx hy hxy
  cases hsx : place? x.1 with
  | none => rfl
  | some s =>
    cases hsy : place? y.1 with
    | none => rfl
    | some s' => exact setAt_comm _ _ (hboth s hsx s' hsy).symm v

/-- **Only what errands to places apart hold matters**, and neither their order nor any marks. -/
theorem unmarked_receive_congr {W' : Nat → Prop} {root root' : Value}
    {errands errands' : List (String × Value)} (h : ReceivesApart W place? root errands)
    (h' : ReceivesApart W' place? root' errands') (hroot : root.unmarked = root'.unmarked)
    (herrands : (errands.map fun e => (e.1, e.2.unmarked)).Perm
      (errands'.map fun e => (e.1, e.2.unmarked))) :
    (root.receive errands).unmarked = (root'.receive errands').unmarked := by
  rw [(receive_apart errands h).1, (receive_apart errands' h').1, unmarked_putEach,
    unmarked_putEach, hroot]
  exact putEach_perm herrands (List.pairwise_map.mpr h.apart) _

end Value

end Verdict
