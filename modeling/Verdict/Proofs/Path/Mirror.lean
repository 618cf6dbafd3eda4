import Verdict.Proofs.Path.Marks
import Verdict.Proofs.Value.Seen

/-!
# Proofs/Path/Mirror — the same value put into two copies

    v  ──accept name u──▸ v₁        own marks:   n
    ┊ mirrors              ┊ mirrors
    v' ──accept name u──▸ v₁'       own marks:   n + shift

Two copies of one value have containers of their own, and take in containers that others hold too.  A
copy **mirrors** the other one if they hold the same and have their own containers in the same places
(`Value.Mirrors`).  As long as all writes go into containers of their own, and into none that is held
elsewhere, copies that mirror each other go on to do so (`Value.Mirrors.accept`).
-/

namespace Verdict

namespace Value

/-! ## Taking in a value -/

/-- A root after a value is put under a name. -/
def accept (root : Value) (name : String) (v : Value) : Value :=
  match Path.write? name root v with
  | .ok (some w) => w.applyTo root
  | _ => root

/-- A value that is put under a name goes into a container with a certain mark, if anywhere. -/
def AcceptsIn (W : Nat → Prop) (root : Value) (name : String) (v : Value) : Prop :=
  ∀ w, Path.write? name root v = .ok (some w) → ∃ n, w.before.mark = some n ∧ W n

variable {W W' : Nat → Prop} {root v u : Value} {name : String}

theorem accept_of_write {w : Write} (h : Path.write? name root v = .ok (some w)) :
    root.accept name v = w.applyTo root := by
  rw [accept, h]

theorem accept_of_skip (h : ∀ w, Path.write? name root v ≠ .ok (some w)) :
    root.accept name v = root := by
  rw [accept]
  split
  · next w hw => exact absurd hw (h w)
  · rfl

theorem accept_cases (root : Value) (name : String) (v : Value) :
    (∃ w, Path.write? name root v = .ok (some w) ∧ root.accept name v = w.applyTo root) ∨
      ((∀ w, Path.write? name root v ≠ .ok (some w)) ∧ root.accept name v = root) := by
  by_cases h : ∃ w, Path.write? name root v = .ok (some w)
  · obtain ⟨w, hw⟩ := h
    exact .inl ⟨w, hw, accept_of_write hw⟩
  · have hskip : ∀ w, Path.write? name root v ≠ .ok (some w) := fun w hw => h ⟨w, hw⟩
    exact .inr ⟨hskip, accept_of_skip hskip⟩

theorem AcceptsIn.imp (h : root.AcceptsIn W name v) (hW : ∀ n ∈ root.marks, W n → W' n) :
    root.AcceptsIn W' name v := fun w hw => by
  obtain ⟨n, hn, hWn⟩ := h w hw
  exact ⟨n, hn, hW n ((Path.mem_marks_of_write? hw).1 (mem_marks_of_mark hn)) hWn⟩

/-- A root takes in no marks but those of the value. -/
theorem mem_marks_accept {n : Nat} (h : n ∈ (root.accept name v).marks) :
    n ∈ root.marks ∨ n ∈ v.marks := by
  rcases root.accept_cases name v with ⟨w, hw, heq⟩ | ⟨-, heq⟩ <;> rw [heq] at h
  · exact (Write.mem_marks_applyTo h).elim .inl (Path.mem_marks_of_write? hw).2
  · exact .inl h

/-- A root after a value is put under a name some times. -/
def acceptTimes (root : Value) (name : String) (v : Value) : Nat → Value
  | 0 => root
  | k + 1 => (root.accept name v).acceptTimes name v k

theorem mem_marks_acceptTimes {n : Nat} (k : Nat) : ∀ {root : Value},
    n ∈ (root.acceptTimes name v k).marks → n ∈ root.marks ∨ n ∈ v.marks := by
  induction k with
  | zero => exact .inl
  | succ k ih => exact fun h => (ih h).elim mem_marks_accept .inr

/-! ## Seeing what is taken in -/

variable {g : Nat → Mark}

/-- A container goes to the places of its mark, as they are seen. -/
theorem seen_replaceMarked {p q : Nat} (h : ∀ n, g n = some q ↔ n = p) (new v : Value) :
    (replaceMarked p new v).seen g = replaceMarked q (new.seen g) (v.seen g) := by
  have hmark : ∀ mark : Mark, mark.bind g = some q ↔ mark = some p := fun mark => by
    cases mark with
    | none => simp
    | some n => rw [Option.bind_some, h, Option.some.injEq]
  induction v using inductionOn with
  | scalar v hv => cases v <;> first | rfl | cases hv
  | list mark items ih =>
    simp only [seen, replaceMarked, hmark]
    split
    · rfl
    · rw [seen, replaceMarkedItems_eq_map, replaceMarkedItems_eq_map, seenItems_eq_map,
        seenItems_eq_map, List.map_map, List.map_map]
      exact congrArg _ (List.map_congr_left ih)
  | object mark fields ih =>
    simp only [seen, replaceMarked, hmark]
    split
    · rfl
    · rw [seen, replaceMarkedFields_eq_map, replaceMarkedFields_eq_map, seenFields_eq_map,
        seenFields_eq_map, List.map_map, List.map_map]
      exact congrArg _ (List.map_congr_left fun e he => congrArg (Prod.mk e.1) (ih e he))

/-- **What is taken in is seen as it would be taken in by what is seen**, if the container that it goes
into is seen as itself. -/
theorem seen_accept (h : root.AcceptsIn (fun p => ∃ q, ∀ n, g n = some q ↔ n = p) name v) :
    (root.accept name v).seen g = (root.seen g).accept name (v.seen g) := by
  have hseen := Path.write?_remark (remarks_seen g) name root v
  rcases root.accept_cases name v with ⟨w, hw, heq⟩ | ⟨hskip, heq⟩ <;> rw [heq]
  · rw [hw] at hseen
    obtain ⟨p, hp, q, hq⟩ := h w hw
    have hmark : (w.before.seen g).mark = some q := by
      rw [(remarks_seen g).mark, hp]
      exact (hq p).mpr rfl
    rw [accept_of_write hseen, Write.applyTo, Write.applyTo, hp]
    dsimp only [Write.through]
    rw [hmark]
    exact seen_replaceMarked hq w.after root
  · refine (accept_of_skip fun w' hw' => ?_).symm
    rw [hseen] at hw'
    rcases hresult : Path.write? name root v with f | (_ | w)
    · rw [hresult] at hw'
      cases hw'
    · rw [hresult] at hw'
      cases hw'
    · exact hskip w hresult

/-! ## Copies that mirror each other -/

/-- How a copy sees its marks: those of its own containers as the other copy has them, and those of
containers that are held elsewhere too, or are not its own, not at all. -/
def ownMark (own : List Nat) (shift : Nat) (held : List Nat) (n : Nat) : Mark :=
  if shift ≤ n ∧ n - shift ∈ own ∧ n - shift ∉ held then some (n - shift) else none

theorem ownMark_eq_some {own held : List Nat} {shift n p : Nat} :
    ownMark own shift held n = some p ↔ p ∈ own ∧ p ∉ held ∧ n = p + shift := by
  unfold ownMark
  split
  · next h =>
    rw [Option.some.injEq]
    constructor
    · rintro rfl
      exact ⟨h.2.1, h.2.2, by omega⟩
    · rintro ⟨-, -, rfl⟩
      omega
  · next h =>
    refine ⟨nofun, ?_⟩
    rintro ⟨hown, hheld, rfl⟩
    rw [Nat.add_sub_cancel] at h
    exact absurd ⟨Nat.le_add_left .., hown, hheld⟩ h

/-- A copy that holds the same as another one, with containers of its own in the same places. -/
def Mirrors (own : List Nat) (shift : Nat) (held : List Nat) (v' v : Value) : Prop :=
  v'.seen (ownMark own shift held) = v.seen (ownMark own 0 held)

namespace Mirrors

variable {own held held' : List Nat} {shift : Nat} {v' u' : Value}

theorem refl (own held : List Nat) (v : Value) : v.Mirrors own 0 held v := rfl

/-- A copy with its marks moved on mirrors the other one. -/
theorem of_rename (own held : List Nat) (shift : Nat) (v : Value) :
    (v.rename (· + shift)).Mirrors own shift held v := by
  rw [Mirrors, seen_rename]
  refine seen_congr fun n _ => ?_
  rw [ownMark, ownMark, Nat.add_sub_cancel, Nat.sub_zero]
  simp

theorem unmarked_eq (h : v'.Mirrors own shift held v) : v'.unmarked = v.unmarked := by
  have hunmarked := congrArg Value.unmarked h
  rwa [unmarked_seen, unmarked_seen] at hunmarked

/-- It goes on to do so when more containers are held elsewhere. -/
theorem mono (h : v'.Mirrors own shift held v) (hsub : held ⊆ held') :
    v'.Mirrors own shift held' v := by
  have hseen : ∀ (s : Nat) (w : Value), w.seen (ownMark own s held') =
      (w.seen (ownMark own s held)).seen fun p => if p ∈ held' then none else some p := by
    intro s w
    rw [seen_seen]
    refine seen_congr fun n _ => Option.ext fun p => ?_
    rw [Option.bind_eq_some_iff, ownMark_eq_some]
    constructor
    · rintro ⟨hown, hheld, rfl⟩
      exact ⟨p, ownMark_eq_some.mpr ⟨hown, fun hp => hheld (hsub hp), rfl⟩, if_neg hheld⟩
    · rintro ⟨q, hq, hp⟩
      split at hp
      · cases hp
      · next hheld =>
        obtain rfl := Option.some.inj hp
        obtain ⟨hown, -, rfl⟩ := ownMark_eq_some.mp hq
        exact ⟨hown, hheld, rfl⟩
  rw [Mirrors, hseen shift, hseen 0, h]

/-- **Copies that mirror each other take in the same value alike**: each into a container of its own. -/
theorem accept (h : v'.Mirrors own shift held v) (hu : u'.Mirrors own shift held u)
    (hv : v.AcceptsIn (fun p => p ∈ own ∧ p ∉ held) name u) :
    (v'.accept name u').Mirrors own shift held (v.accept name u) ∧
      v'.AcceptsIn (fun n => ∃ p ∈ own, p ∉ held ∧ n = p + shift) name u' := by
  have hown : ∀ {s p}, p ∈ own ∧ p ∉ held → ∀ n, ownMark own s held n = some p ↔ n = p + s :=
    fun hp n => ⟨fun hn => (ownMark_eq_some.mp hn).2.2, fun hn => ownMark_eq_some.mpr ⟨hp.1, hp.2, hn⟩⟩
  have hv' : v'.AcceptsIn (fun n => ∃ p ∈ own, p ∉ held ∧ n = p + shift) name u' := fun w' hw' => by
    have hseen := Path.write?_remark (remarks_seen (ownMark own 0 held)) name v u
    have hseen' := Path.write?_remark (remarks_seen (ownMark own shift held)) name v' u'
    rw [hw', h, hu, hseen] at hseen'
    rcases hwrite : Path.write? name v u with f | (_ | w)
    · rw [hwrite] at hseen'
      cases hseen'
    · rw [hwrite] at hseen'
      cases hseen'
    · rw [hwrite] at hseen'
      obtain ⟨p, hp, hpown, hpheld⟩ := hv w hwrite
      have hbefore : w.before.seen (ownMark own 0 held) = w'.before.seen (ownMark own shift held) :=
        congrArg Write.before (Option.some.inj (Except.ok.inj hseen'))
      have hmark := congrArg Value.mark hbefore
      rw [(remarks_seen _).mark, (remarks_seen _).mark, hp, Option.bind_some,
        (hown ⟨hpown, hpheld⟩ p).mpr rfl] at hmark
      obtain ⟨n, hn, hnown⟩ := Option.bind_eq_some_iff.mp hmark.symm
      exact ⟨n, hn, p, hpown, hpheld, (ownMark_eq_some.mp hnown).2.2⟩
  refine ⟨?_, hv'⟩
  rw [Mirrors, seen_accept, seen_accept, h, hu]
  · exact hv.imp fun p _ hp => ⟨p, hown hp⟩
  · refine hv'.imp fun n _ hn => ?_
    obtain ⟨p, hpown, hpheld, rfl⟩ := hn
    exact ⟨p, hown ⟨hpown, hpheld⟩⟩

/-- So they do when they take it in some times. -/
theorem acceptTimes (hu : u'.Mirrors own shift held u) : ∀ {k : Nat} {v v' : Value},
    v'.Mirrors own shift held v →
    (∀ m < k, (v.acceptTimes name u m).AcceptsIn (fun p => p ∈ own ∧ p ∉ held) name u) →
    (v'.acceptTimes name u' k).Mirrors own shift held (v.acceptTimes name u k) ∧
      ∀ m < k, (v'.acceptTimes name u' m).AcceptsIn
        (fun n => ∃ p ∈ own, p ∉ held ∧ n = p + shift) name u'
  | 0, _, _, h, _ => ⟨h, fun m hm => absurd hm (Nat.not_lt_zero m)⟩
  | k + 1, v, v', h, hv => by
    obtain ⟨hfirst, haccepts⟩ := h.accept hu (hv 0 (Nat.zero_lt_succ k))
    obtain ⟨hlast, hrest⟩ := acceptTimes hu hfirst fun m hm => hv (m + 1) (Nat.succ_lt_succ hm)
    refine ⟨hlast, fun m hm => ?_⟩
    cases m with
    | zero => exact haccepts
    | succ m => exact hrest m (Nat.lt_of_succ_lt_succ hm)

end Mirrors

end Value

end Verdict
