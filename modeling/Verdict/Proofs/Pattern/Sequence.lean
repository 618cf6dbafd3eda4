import Verdict.Pattern.Reader

/-!
# Proofs/Pattern/Sequence — reading a pattern without groups

A pattern that opens no group and turns no mode on is read as one sequence.  There is one step for
each kind of token, from the nodes read so far and the tokens left to the next ones, and
`ofText_eq_of_readSequence` reads the whole pattern.
-/

namespace Verdict.Pattern

/-- What is known of a pattern without groups and modes where some tokens are left. -/
def Progress.left (ts : List Token) : Progress := { rest := ts, mode := {} }

/-- The characters that stand for something else than themselves in a sequence. -/
def meaningful : List Char := "|)[.^$?*+\x7b(".toList

/-- One reader after another, where the first one's answer is known. -/
theorem Reading.bind_of_ok {α β : Type} {x : Reading α} {g : α → Reading β} {a : α} {p q : Progress}
    (h : x p = .ok (a, q)) : (x >>= g) p = g a q := by
  change (x p >>= fun y => g y.1 y.2) = _
  rw [h]
  rfl

section

variable {c : Char} {t : Token} {ts : List Token} {fuel : Nat} {outermost : Bool}
  {read : List (Node × Width)}

/-! ## Tokens -/

theorem get_left (ts : List Token) :
    (get : Reading Progress) (.left ts) = .ok (.left ts, .left ts) := rfl

theorem peek_left (ts : List Token) : peek (.left ts) = .ok (ts.head?, .left ts) := rfl

theorem advance_left (h : .dangling ∉ ts) : advance (.left (t :: ts)) = .ok ((), .left ts) := by
  cases ts with
  | nil => rfl
  | cons next _ =>
    cases next with
    | plain c => rfl
    | escaped c => rfl
    | dangling => exact absurd (List.mem_cons_self ..) h

/-- Another character than the next one is not taken. -/
theorem takeIf_left (h : ts.head? ≠ some (.plain c)) :
    takeIf c (.left ts) = .ok (false, .left ts) := by
  rw [takeIf, Reading.bind_of_ok (peek_left ts), if_neg h]
  rfl

theorem readGreed_left (hlazy : ts.head? ≠ some (.plain '?'))
    (hpossessive : ts.head? ≠ some (.plain '+')) :
    readGreed (.left ts) = .ok (.greedy, .left ts) := by
  rw [readGreed, Reading.bind_of_ok (takeIf_left hlazy)]
  exact Reading.bind_of_ok (takeIf_left hpossessive)

/-- **A backslash and a character that is no letter and no digit stand for the character.** -/
theorem readEscape_eq (h : c.isAlphanum = false) (p : Progress) :
    readEscape {} c p = .ok ((.char {} c.toNat, .one), p) := by
  have hne : ∀ d : Char, d.isAlphanum = true → c ≠ d := fun d hd heq => by
    rw [heq, hd] at h
    cases h
  have hanchor : anchor? c = none := by
    unfold anchor?
    split <;> first | rfl | cases h
  have hcategory : category? c = none := by
    unfold category?
    split <;> first | rfl | cases h
  have hcode : readEscapedCode c p = .ok (c.toNat, p) := by
    by_cases hbackslash : c = '\\'
    · rw [hbackslash]
      rfl
    · have hcontrol : controlCode? c = none := by
        unfold controlCode?
        split <;> first | rfl | exact (hbackslash rfl).elim | cases h
      rw [readEscapedCode, hcontrol]
      dsimp only
      rw [if_neg (hne 'x' rfl), if_neg (hne 'u' rfl), if_neg (hne 'U' rfl), if_neg (hne 'N' rfl),
        if_neg (Bool.not_eq_true _ ▸ h)]
      rfl
  obtain ⟨_, hdigit⟩ := Bool.or_eq_false_iff.mp h
  rw [readEscape, hanchor, hcategory]
  dsimp only
  rw [if_neg (hne '0' rfl), hdigit, if_neg Bool.false_ne_true]
  exact Reading.bind_of_ok hcode

/-! ## Steps -/

theorem readSequence_nil :
    readSequence (fuel + 1) outermost {} read (.left []) = .ok (sequence read, .left []) := by
  rw [readSequence, Reading.bind_of_ok (peek_left _)]
  rfl

/-- A character without a meaning stands for itself. -/
theorem readSequence_plain (h : .dangling ∉ ts) (hc : c ∉ meaningful) :
    readSequence (fuel + 1) outermost {} read (.left (.plain c :: ts)) =
      readSequence fuel outermost {} ((.char {} c.toNat, .one) :: read) (.left ts) := by
  have hstep : readSequence (fuel + 1) outermost {} read (.left (.plain c :: ts)) =
      (advance >>= fun _ => readSequence fuel outermost {} ((.char {} c.toNat, .one) :: read))
        (.left (.plain c :: ts)) := by
    rw [readSequence, Reading.bind_of_ok (peek_left _)]
    refine congrFun ?_ _
    rw [List.head?_cons]
    split
    case h_1 heq | h_2 heq | h_5 _ heq => cases heq
    case h_3 heq | h_4 heq =>
      cases heq
      exact absurd (by decide) hc
    case h_6 _ _ _ heq =>
      cases heq
      refine congrArg (advance >>= ·) (funext fun _ => ?_)
      rw [if_neg (by simp), if_neg (by simp)]
      split
      case h_10 => rfl
      all_goals exact absurd (by decide) hc
  exact hstep.trans (Reading.bind_of_ok (advance_left h))

theorem readSequence_escaped (h : .dangling ∉ ts) (hc : c.isAlphanum = false) :
    readSequence (fuel + 1) outermost {} read (.left (.escaped c :: ts)) =
      readSequence fuel outermost {} ((.char {} c.toNat, .one) :: read) (.left ts) := by
  rw [readSequence, Reading.bind_of_ok (peek_left _)]
  refine (Reading.bind_of_ok (advance_left h)).trans ?_
  exact Reading.bind_of_ok (readEscape_eq hc _)

theorem readSequence_dot (h : .dangling ∉ ts) :
    readSequence (fuel + 1) outermost {} read (.left (.plain '.' :: ts)) =
      readSequence fuel outermost {} ((.any {}, .one) :: read) (.left ts) := by
  rw [readSequence, Reading.bind_of_ok (peek_left _)]
  exact Reading.bind_of_ok (advance_left h)

/-- A star repeats the last node. -/
theorem readSequence_star {node : Node} {width : Width} (h : .dangling ∉ ts)
    (hnode : isRepeatable node = true) (hlazy : ts.head? ≠ some (.plain '?'))
    (hpossessive : ts.head? ≠ some (.plain '+')) :
    readSequence (fuel + 1) outermost {} ((node, width) :: read) (.left (.plain '*' :: ts)) =
      readSequence fuel outermost {}
        ((.times 0 none .greedy node, width.times 0 none) :: read) (.left ts) := by
  rw [readSequence, Reading.bind_of_ok (peek_left _)]
  refine (Reading.bind_of_ok (advance_left h)).trans ?_
  refine Reading.bind_of_ok (?_ : repeatLast 0 none ((node, width) :: read) (.left ts) = _)
  rw [repeatLast, hnode]
  exact Reading.bind_of_ok (readGreed_left hlazy hpossessive)

/-! ## Whole patterns -/

/-- **A pattern is the node of the sequence that its tokens are read as.** -/
theorem ofText_eq_of_readSequence {s : String} {item : Node × Width}
    (h : .dangling ∉ tokens s.toList)
    (hread : ∀ fuel, readSequence (fuel + 1 + (tokens s.toList).length) true {} []
      (.left (tokens s.toList)) = .ok (item, .left [])) :
    ofText {} s = .ok item.1 := by
  have halternatives : readAlternatives (4 * (tokens s.toList).length + 8) true {}
      (.left (tokens s.toList)) = .ok (item, .left []) := by
    have hfuel : 4 * (tokens s.toList).length + 7 =
        3 * (tokens s.toList).length + 6 + 1 + (tokens s.toList).length := by omega
    rw [readAlternatives, hfuel, Reading.bind_of_ok (hread _)]
    exact Reading.bind_of_ok (peek_left [])
  have hwhole : readWhole {} (.left (tokens s.toList)) = .ok (item.1, .left []) := by
    rw [readWhole, Reading.bind_of_ok (get_left _)]
    -- nothing is left, no mistake was put off, and no group was asked for
    exact (Reading.bind_of_ok halternatives).trans rfl
  unfold ofText
  split
  · next hdangling => exact absurd (hdangling ▸ List.mem_singleton_self _) h
  · change Prod.fst <$> readWhole {} (.left (tokens s.toList)) = _
    rw [hwhole]
    rfl

end

end Verdict.Pattern
