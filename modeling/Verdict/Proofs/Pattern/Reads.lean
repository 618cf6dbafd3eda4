import Verdict.Pattern.Reader

/-!
# Proofs/Pattern/Reads — what a part of a reader reads

    before                x                 after
    … just read | left  ──▸  … just read | left

A reader takes tokens from what is left of a pattern.  `Within ts before p` says that in the pattern
`ts` the tokens `before` come right before what is left.  `Reads` is a triple: from a state as it was
before a reader goes to a state as after it, and a fault has a cause that stands in the pattern, an
`Exceeds`.  There is one rule for each way to build readers and one for each reader of single tokens.
-/

namespace Verdict.Pattern

/-! ## Faults and their causes -/

/-- Digits between braces, alone or on one side of a comma. -/
inductive HoldsCount (cs digits : List Char) : Prop
  | alone : '\x7b' :: digits ++ ['\x7d'] <:+: cs → HoldsCount cs digits
  | low {high : List Char} : '\x7b' :: digits ++ ',' :: high ++ ['\x7d'] <:+: cs →
      HoldsCount cs digits
  | high {low : List Char} : '\x7b' :: low ++ ',' :: digits ++ ['\x7d'] <:+: cs →
      HoldsCount cs digits

/-- Letters of modes for the whole pattern, with the given one among them. -/
def AsksFor (cs : List Char) (letter : Char) : Prop :=
  ∃ letters, letter ∈ letters ∧ (∀ c ∈ letters, (flag? c).isSome = true) ∧
    '(' :: '?' :: letters ++ [')'] <:+: cs

/-- A pattern that exceeds a limit of patterns. -/
inductive Exceeds (cs : List Char) : Fault → Prop
  /-- A count of rounds has too many digits. -/
  | numeral {digits : List Char} : HoldsCount cs digits → (∀ c ∈ digits, c.isDigit = true) →
      maxIntegerDigits < digits.length → Exceeds cs (.numeralTooLong digits.length)
  /-- A count of rounds is too large. -/
  | count {digits : List Char} : HoldsCount cs digits → (∀ c ∈ digits, c.isDigit = true) →
      tooManyRounds ≤ numberOf 10 digits → Exceeds cs .repetitionTooLarge
  /-- A code point of eight digits has more than 31 bits. -/
  | code {digits : List Char} : '\\' :: 'U' :: digits <:+: cs → digits.length = 8 →
      (∀ c ∈ digits, isHex c = true) → 0x80000000 ≤ numberOf 16 digits →
      Exceeds cs .codePointTooLarge
  /-- ASCII and Unicode classes are asked for. -/
  | classes : AsksFor cs 'a' → AsksFor cs 'u' → Exceeds cs .classesClash

/-- The characters of tokens. -/
def charsOf (ts : List Token) : List Char := ts.flatMap Token.chars

theorem charsOf_append (ts us : List Token) : charsOf (ts ++ us) = charsOf ts ++ charsOf us :=
  List.flatMap_append

theorem charsOf_plain (cs : List Char) : charsOf (cs.map .plain) = cs := by
  induction cs with
  | nil => rfl
  | cons c cs ih => exact congrArg (c :: ·) ih

/-- A pattern is split into its characters. -/
theorem charsOf_tokens (cs : List Char) : charsOf (tokens cs) = cs := by
  fun_induction tokens cs with
  | case1 => rfl
  | case2 => rfl
  | case3 c rest ih => exact congrArg ('\\' :: c :: ·) ih
  | case4 c rest _ _ ih => exact congrArg (c :: ·) ih

theorem charsOf_mono {ts us : List Token} (h : ts <:+: us) : charsOf ts <:+: charsOf us := by
  obtain ⟨before, after, rfl⟩ := h
  exact ⟨charsOf before, charsOf after, by simp only [charsOf_append]⟩

/-! ## Triples -/

/-- The tokens `before` come right before what is left of the pattern `ts`, and the modes that hold
for the whole pattern were asked for in it. -/
structure Within (ts before : List Token) (p : Progress) : Prop where
  rest : before ++ p.rest <:+ ts
  ascii : p.mode.ascii = true → AsksFor (charsOf ts) 'a'
  unicode : p.unicode = true → AsksFor (charsOf ts) 'u'

/-- From a state with `P` a reader goes to a state with `Q`, and a fault has its cause in the
pattern. -/
def Reads (ts : List Token) {α : Type} (P : Progress → Prop) (x : Reading α)
    (Q : α → Progress → Prop) : Prop :=
  ∀ p, P p → (∀ a q, x p = .ok (a, q) → Q a q) ∧
    ∀ f, x p = .error (.fault f) → Exceeds (charsOf ts) f

/-- A reader that may stand anywhere in the pattern. -/
def Keeps (ts : List Token) {α : Type} (x : Reading α) : Prop :=
  Reads ts (Within ts []) x fun _ => Within ts []

section

variable {ts before : List Token} {α β : Type} {P P' : Progress → Prop} {x : Reading α}

/-- What has just been read may be forgotten. -/
theorem Within.forget {p : Progress} (h : Within ts before p) : Within ts [] p :=
  ⟨(List.suffix_append ..).trans h.rest, h.ascii, h.unicode⟩

/-- What was read before may be forgotten. -/
theorem Within.last {later : List Token} {p : Progress} (h : Within ts (before ++ later) p) :
    Within ts later p := by
  refine ⟨(List.suffix_append before _).trans ?_, h.ascii, h.unicode⟩
  rw [← List.append_assoc]
  exact h.rest

/-- What has just been read stands in the pattern. -/
theorem Within.chars {p : Progress} (h : Within ts before p) :
    charsOf before <:+: charsOf ts :=
  charsOf_mono ((List.prefix_append ..).isInfix.trans h.rest.isInfix)

/-- A change of what is known of groups is none of the place in the pattern. -/
theorem Within.congr {p q : Progress} (h : Within ts before p) (hrest : q.rest = p.rest)
    (hmode : q.mode = p.mode) (hunicode : q.unicode = p.unicode) : Within ts before q :=
  ⟨hrest ▸ h.rest, hmode ▸ h.ascii, hunicode ▸ h.unicode⟩

namespace Reads

variable {Q Q' : α → Progress → Prop}

theorem pure {a : α} (h : ∀ p, P p → Q a p) : Reads ts P (pure a) Q := fun p hp =>
  ⟨fun _ _ heq => by cases heq; exact h p hp, fun _ heq => by cases heq⟩

theorem refuse : Reads ts P (refuse : Reading α) Q := fun _ _ =>
  ⟨fun _ _ heq => (by cases heq), fun _ heq => by cases heq⟩

theorem fault {f : Fault} (h : ∀ p, P p → Exceeds (charsOf ts) f) :
    Reads ts P (throw (.fault f) : Reading α) Q := fun p hp =>
  ⟨fun _ _ heq => (by cases heq), fun _ heq => by cases heq; exact h p hp⟩

/-- Nothing is read after a mistake. -/
theorem refuse_bind {R : β → Progress → Prop} {g : α → Reading β} :
    Reads ts P (Pattern.refuse >>= g) R := fun _ _ =>
  ⟨fun _ _ heq => (by cases heq), fun _ heq => by cases heq⟩

theorem fault_bind {R : β → Progress → Prop} {g : α → Reading β} {f : Fault}
    (h : ∀ p, P p → Exceeds (charsOf ts) f) :
    Reads ts P ((throw (.fault f) : Reading α) >>= g) R := fun p hp =>
  ⟨fun _ _ heq => (by cases heq), fun _ heq => by cases heq; exact h p hp⟩

/-- **One reader after another.** -/
theorem bind {R : β → Progress → Prop} {g : α → Reading β} (hx : Reads ts P x Q)
    (hg : ∀ a, Reads ts (Q a) (g a) R) : Reads ts P (x >>= g) R := by
  intro p hp
  obtain ⟨hok, herror⟩ := hx p hp
  cases h : x p with
  | error e =>
    have hbind : (x >>= g) p = .error e := by
      change (x p >>= fun y => g y.1 y.2) = _
      rw [h]
      rfl
    refine ⟨fun _ _ heq => ?_, fun f heq => ?_⟩
    · rw [hbind] at heq
      cases heq
    · rw [hbind] at heq
      cases heq
      exact herror f h
  | ok y =>
    have hbind : (x >>= g) p = g y.1 y.2 := by
      change (x p >>= fun y => g y.1 y.2) = _
      rw [h]
      rfl
    rw [hbind]
    exact hg y.1 y.2 (hok y.1 y.2 h)

/-- One of two readers, and one after either. -/
theorem ite_bind {c : Prop} [Decidable c] {x y : Reading α} {R : β → Progress → Prop}
    {g : α → Reading β} (hx : Reads ts P (if c then x else y) Q)
    (hg : ∀ a, Reads ts (Q a) (g a) R) : Reads ts P (if c then x >>= g else y >>= g) R := by
  by_cases h : c
  · rw [if_pos h] at hx ⊢
    exact bind hx hg
  · rw [if_neg h] at hx ⊢
    exact bind hx hg

theorem mono (hx : Reads ts P x Q) (hP : ∀ p, P' p → P p) (hQ : ∀ a q, Q a q → Q' a q) :
    Reads ts P' x Q' := fun p hp =>
  ⟨fun a q h => hQ a q ((hx p (hP p hp)).1 a q h), (hx p (hP p hp)).2⟩

/-- What is known whatever the state is may be used. -/
theorem and {c : Prop} (hx : c → Reads ts P x Q) : Reads ts (fun p => P p ∧ c) x Q :=
  fun p hp => hx hp.2 p hp.1

theorem of_exists {ι : Type} {P : ι → Progress → Prop} (hx : ∀ i, Reads ts (P i) x Q) :
    Reads ts (fun p => ∃ i, P i p) x Q := fun p ⟨i, hp⟩ => hx i p hp

/-- A reader that may stand anywhere may stand here. -/
theorem of_keeps (hx : Keeps ts x) : Reads ts (Within ts before) x fun _ => Within ts [] :=
  mono hx (fun _ => Within.forget) fun _ _ h => h

/-- A reader that may stand anywhere, and one after it. -/
theorem keeps_bind {R : β → Progress → Prop} {g : α → Reading β} (hx : Keeps ts x)
    (hg : ∀ a, Reads ts (Within ts []) (g a) R) : Reads ts (Within ts before) (x >>= g) R :=
  bind (of_keeps hx) hg

/-- The end of a reader, wherever it is. -/
theorem done {a : α} : Reads ts (Within ts before) (Pure.pure a) fun _ => Within ts [] :=
  pure fun _ => Within.forget

theorem get : Reads ts P get fun a q => P q ∧ P a := fun p hp =>
  ⟨fun _ _ heq => by cases heq; exact ⟨hp, hp⟩, fun _ heq => by cases heq⟩

theorem set {p : Progress} (h : P p) : Reads ts P' (set p) fun _ => P := fun _ _ =>
  ⟨fun _ _ heq => by cases heq; exact h, fun _ heq => by cases heq⟩

theorem modify {g : Progress → Progress} {R : Unit → Progress → Prop} (h : ∀ p, P p → R () (g p)) :
    Reads ts P (modify g) R := fun p hp =>
  ⟨fun _ _ heq => by cases heq; exact h p hp, fun _ heq => by cases heq⟩

end Reads

/-! ## Single tokens -/

namespace Reads

theorem peek : Reads ts P peek fun t q => P q ∧ q.rest.head? = t := fun p hp =>
  ⟨fun _ _ heq => by cases heq; exact ⟨hp, rfl⟩, fun _ heq => by cases heq⟩

/-- The next token is dropped. -/
theorem advance {t : Token} :
    Reads ts (fun p => Within ts before p ∧ p.rest.head? = some t) advance
      fun _ => Within ts (before ++ [t]) := by
  refine bind get fun p => and fun ⟨hp, hhead⟩ => ?_
  obtain ⟨rest, hrest⟩ : ∃ rest, p.rest = t :: rest := List.head?_eq_some_iff.mp hhead
  rw [hrest, List.drop_succ_cons, List.drop_zero]
  split
  · exact refuse
  · refine set ⟨?_, hp.ascii, hp.unicode⟩
    have hwithin := hp.rest
    rw [hrest] at hwithin
    simpa using hwithin

theorem takeToken : Reads ts (Within ts before) takeToken
    fun t => Within ts (before ++ t.toList) := by
  refine bind peek fun t => ?_
  dsimp only
  split
  · next hsome =>
    obtain ⟨t, rfl⟩ := Option.isSome_iff_exists.mp hsome
    exact bind advance fun _ => pure fun _ h => h
  · next hnone =>
    rw [Bool.not_eq_true, Option.isSome_eq_false_iff, Option.isNone_iff_eq_none] at hnone
    subst hnone
    exact pure fun p hp => by simpa using hp.1

theorem takeIf (c : Char) : Reads ts (Within ts before) (takeIf c)
    fun b => Within ts (if b then before ++ [.plain c] else before) := by
  refine bind peek fun t => ?_
  split
  · next ht =>
    subst ht
    exact bind advance fun _ => pure fun _ h => h
  · exact pure fun _ hp => hp.1

/-- The characters that pass a test are read one by one. -/
theorem takeWhile (test : Char → Bool) : ∀ {most : Nat} {before : List Token},
    Reads ts (Within ts before) (takeWhile test most)
      fun cs p => Within ts (before ++ cs.map .plain) p ∧ ∀ c ∈ cs, test c = true
  | 0, before => pure fun p hp => ⟨by simpa using hp, nofun⟩
  | most + 1, before => by
    have hnone : Reads ts (Within ts before) (Pure.pure [] : Reading (List Char))
        fun cs p => Within ts (before ++ cs.map .plain) p ∧ ∀ c ∈ cs, test c = true :=
      pure fun p hp => ⟨by simpa using hp, nofun⟩
    refine bind peek fun t => ?_
    split
    · next c =>
      split
      · next htest =>
        refine bind advance fun _ => bind (takeWhile test) fun cs => pure fun p hp => ⟨?_, ?_⟩
        · simpa using hp.1
        · exact List.forall_mem_cons.mpr ⟨htest, hp.2⟩
      · exact hnone.mono (fun _ hp => hp.1) fun _ _ h => h
    · exact hnone.mono (fun _ hp => hp.1) fun _ _ h => h

end Reads

end

end Verdict.Pattern
