import Verdict.Pattern.Match

/-!
# Proofs/Pattern/Takes — the texts that a node takes

    before            part              left
    … taken before | taken by a node | left for what comes next

Matching hands what comes next to each way in which a node can match.  `Takes node taken` sums those
ways up for a node that captures nothing: the texts it takes, wherever they stand.  There is one rule
for each kind of node, and `Takes.isWhole_iff` reads the match of a whole text off.
-/

namespace Verdict.Pattern

/-- The state after some characters, with nothing captured. -/
def State.after (before : List Char) : State := ⟨before.length, []⟩

/-- A node takes the texts of a kind: it matches where what comes next succeeds after one of
them. -/
def Takes (node : Node) (taken : List Char → Prop) : Prop :=
  ∀ (before rest : List Char) (next : Next),
    (run (before ++ rest).toArray node (.after before) next).isSome = true ↔
      ∃ part left, rest = part ++ left ∧ taken part ∧
        (next (.after (before ++ part))).isSome = true

/-- A node takes the characters of a kind, one at a time. -/
def TakesOne (node : Node) (kind : Char → Prop) : Prop :=
  Takes node fun part => ∃ c, kind c ∧ part = [c]

section

variable {node : Node} {nodes : List Node} {taken taken' : List Char → Prop} {kind : Char → Prop}

theorem Takes.congr (h : Takes node taken) (htaken : ∀ part, taken part ↔ taken' part) :
    Takes node taken' := fun before rest next =>
  (h before rest next).trans (by simp only [htaken])

/-! ## Single characters -/

/-- One character of a kind is taken from nothing or from the first of some characters. -/
theorem exists_one_iff {rest : List Char} {goes : List Char → Prop} :
    (∃ part left, rest = part ++ left ∧ (∃ c, kind c ∧ part = [c]) ∧ goes part) ↔
      ∃ c left, rest = c :: left ∧ kind c ∧ goes [c] := by
  constructor
  · rintro ⟨_, left, hrest, ⟨c, hkind, rfl⟩, hgoes⟩
    exact ⟨c, left, hrest, hkind, hgoes⟩
  · rintro ⟨c, left, hrest, hkind, hgoes⟩
    exact ⟨[c], left, hrest, ⟨c, hkind, rfl⟩, hgoes⟩

theorem isSome_takeOne_iff (before rest : List Char) (test : Nat → Bool) (next : Next) :
    (takeOne (before ++ rest).toArray test (.after before) next).isSome = true ↔
      ∃ c left, rest = c :: left ∧ test c.toNat = true ∧
        (next (.after (before ++ [c]))).isSome = true := by
  cases rest with
  | nil => simp [takeOne, codeAt, State.after]
  | cons c left => by_cases htest : test c.toNat <;> simp [takeOne, codeAt, State.after, htest]

theorem takesOne_char (c : Char) : TakesOne (.char {} c.toNat) (· = c) := fun before rest next => by
  have hsame : ∀ d : Char, sameCode {} c.toNat d.toNat = true ↔ d = c := fun d =>
    calc sameCode {} c.toNat d.toNat = true
      _ ↔ c.toNat = d.toNat := beq_iff_eq
      _ ↔ d = c := by rw [Char.toNat_inj, eq_comm]
  rw [run, isSome_takeOne_iff, exists_one_iff]
  simp only [hsame]

/-- The dot takes each character but a line end. -/
theorem takesOne_any : TakesOne (.any {}) (· ≠ '\n') := fun before rest next => by
  have hany : ∀ d : Char, (d.toNat != 10) = true ↔ d ≠ '\n' := fun d =>
    calc (d.toNat != 10) = true
      _ ↔ d.toNat ≠ '\n'.toNat := bne_iff_ne
      _ ↔ d ≠ '\n' := by rw [ne_eq, Char.toNat_inj]
  rw [run, isSome_takeOne_iff, exists_one_iff]
  simp only [Bool.false_or, hany]

/-! ## Repetition -/

/-- A run of characters of a kind is empty, or a first character and a run after it. -/
theorem exists_run_cons_iff {c : Char} {rest : List Char} {goes : List Char → Prop} :
    (∃ part left, c :: rest = part ++ left ∧ (∀ d ∈ part, kind d) ∧ goes part) ↔
      (kind c ∧ ∃ part left, rest = part ++ left ∧ (∀ d ∈ part, kind d) ∧ goes (c :: part)) ∨
        goes [] := by
  constructor
  · rintro ⟨part, left, hrest, hkind, hgoes⟩
    cases part with
    | nil => exact .inr hgoes
    | cons d part =>
      obtain ⟨rfl, rfl⟩ := List.cons.inj hrest
      obtain ⟨hc, hpart⟩ := List.forall_mem_cons.mp hkind
      exact .inl ⟨hc, part, left, rfl, hpart, hgoes⟩
  · rintro (⟨hc, part, left, rfl, hpart, hgoes⟩ | hgoes)
    · exact ⟨c :: part, left, rfl, List.forall_mem_cons.mpr ⟨hc, hpart⟩, hgoes⟩
    · exact ⟨[], c :: rest, rfl, List.forall_mem_nil _, hgoes⟩

/-- A further round is tried first, and what comes next after it. -/
theorem isSome_moreGreedy_succ (round : State → Next → Option State) (fuel : Nat)
    (last : Option Nat) (st : State) (next : Next) (hlast : last ≠ some st.pos) :
    (moreGreedy round (fuel + 1) none last st next).isSome = true ↔
      (round st fun st' => moreGreedy round fuel none (some st.pos) st' next).isSome = true ∨
        (next st).isSome = true := by
  have hgo : mayGoOn none last st = true := by simp [mayGoOn, hlast]
  rw [moreGreedy, if_pos hgo, Option.map_none]
  cases round st fun st' => moreGreedy round fuel none (some st.pos) st' next with
  | some found => simp
  | none => simp

/-- Further rounds take a run of the characters; `fuel` is enough for all that are left. -/
theorem TakesOne.isSome_moreGreedy_iff (h : TakesOne node kind) (next : Next) :
    ∀ (rest before : List Char) (fuel : Nat) (last : Option Nat), rest.length < fuel →
      last ≠ some before.length →
      ((moreGreedy (run (before ++ rest).toArray node) fuel none last (.after before) next).isSome =
        true ↔ ∃ part left, rest = part ++ left ∧ (∀ c ∈ part, kind c) ∧
          (next (.after (before ++ part))).isSome = true)
  | rest, before, 0, _, hfuel, _ => by cases hfuel
  | [], before, fuel + 1, last, _, hlast => by
    rw [isSome_moreGreedy_succ _ _ _ _ _ hlast, h before [], exists_one_iff]
    simp
  | c :: rest, before, fuel + 1, last, hfuel, hlast => by
    have hnew : some before.length ≠ some (before ++ [c]).length := by simp
    have ih := h.isSome_moreGreedy_iff next rest (before ++ [c]) fuel (some before.length)
      (Nat.lt_of_succ_lt_succ hfuel) hnew
    rw [← List.append_cons] at ih
    rw [isSome_moreGreedy_succ _ _ _ _ _ hlast, h before (c :: rest), exists_one_iff,
      exists_run_cons_iff, List.append_nil]
    simp only [List.append_assoc, List.singleton_append] at ih
    refine or_congr_left ⟨?_, ?_⟩
    · rintro ⟨_, _, ⟨rfl, rfl⟩, hc, hmore⟩
      exact ⟨hc, ih.mp hmore⟩
    · rintro ⟨hc, hmore⟩
      exact ⟨c, rest, rfl, hc, ih.mpr hmore⟩

/-- **A repetition takes any run of the characters.** -/
theorem TakesOne.times (h : TakesOne node kind) :
    Takes (.times 0 none .greedy node) fun part => ∀ c ∈ part, kind c := by
  intro before rest next
  rw [run, repeated, least]
  exact h.isSome_moreGreedy_iff next rest before _ none (by simp; omega) nofun

/-! ## Sequences -/

theorem takes_seq_nil : Takes (.seq []) (· = []) := fun before rest next => by
  rw [run, runAll]
  constructor
  · intro hnext
    exact ⟨[], rest, rfl, rfl, by rwa [List.append_nil]⟩
  · rintro ⟨_, _, _, rfl, hnext⟩
    rwa [List.append_nil] at hnext

/-- **Nodes in a sequence take what each of them takes, one after another.** -/
theorem Takes.seq_cons (h : Takes node taken) (hnodes : Takes (.seq nodes) taken') :
    Takes (.seq (node :: nodes)) fun text =>
      ∃ part left, text = part ++ left ∧ taken part ∧ taken' left := by
  intro before rest next
  rw [run, runAll, h before rest]
  constructor
  · rintro ⟨part, left, rfl, hpart, hnext⟩
    have hleft := hnodes (before ++ part) left next
    rw [List.append_assoc, run] at hleft
    obtain ⟨part', left', rfl, hpart', hnext'⟩ := hleft.mp hnext
    exact ⟨part ++ part', left', by rw [List.append_assoc], ⟨part, part', rfl, hpart, hpart'⟩,
      by rwa [← List.append_assoc]⟩
  · rintro ⟨_, left', rfl, ⟨part, part', rfl, hpart, hpart'⟩, hnext⟩
    have hleft := hnodes (before ++ part) (part' ++ left') next
    rw [List.append_assoc, run] at hleft
    refine ⟨part, part' ++ left', by rw [List.append_assoc], hpart, ?_⟩
    rw [List.append_assoc]
    exact hleft.mpr ⟨part', left', rfl, hpart', by rwa [List.append_assoc]⟩

/-- **A node matches a whole text that it takes.** -/
theorem Takes.isWhole_iff (h : Takes node taken) (s : String) :
    isWhole node s = true ↔ taken s.toList := by
  refine (h [] s.toList _).trans ?_
  constructor
  · rintro ⟨part, left, heq, hpart, hend⟩
    have hsize : part.length = s.toList.length := by simpa [State.after] using hend
    obtain rfl : left = [] := by simpa [heq] using hsize
    rwa [heq, List.append_nil]
  · intro htaken
    refine ⟨s.toList, [], (List.append_nil _).symm, htaken, ?_⟩
    simp [State.after]

end

end Verdict.Pattern
