import Mathlib.Data.List.TakeWhile
import Verdict.Proofs.Path.Compose
import Verdict.Proofs.Text.DecimalDigit

/-!
# Proofs/Path/Written — the texts of a path

    segments ──Written──▸ text ──ofChars──▸ the same segments

A segment can be written in up to two ways, and a path is written by writing its segments one after
another.  Each text is read back as the segment it writes (`Segment.read?_of_isText`), so a path is
read back as the segments that it writes, also when the point of its first key is left out:
`Path.resolve_of_written`.
-/

namespace Verdict

/-! ## Decimal numerals -/

/-- The written form of an integer. -/
theorem toList_toString (i : Int) : (toString i).toList =
    if i < 0 then '-' :: Nat.toDigits 10 i.natAbs else Nat.toDigits 10 i.natAbs := by
  cases i with
  | ofNat n =>
    rw [if_neg (by simp)]
    exact Nat.toList_repr
  | negSucc n =>
    rw [if_pos (Int.negSucc_lt_zero n)]
    change ("-" ++ (n + 1).repr).toList = '-' :: Nat.toDigits 10 (n + 1)
    rw [String.toList_append, Nat.toList_repr]
    rfl

theorem isBlank_of_isDigit {c : Char} (h : c.isDigit = true) : isBlank c = false := by
  have hnumber := toNat_of_isDigit h
  simp only [isBlank, Bool.or_eq_false_iff, Bool.and_eq_false_iff, decide_eq_false_iff_not,
    beq_eq_false_iff_ne]
  omega

theorem isBlank_of_mem_toString {i : Int} {c : Char} (h : c ∈ (toString i).toList) :
    isBlank c = false := by
  have hdigit : ∀ c ∈ Nat.toDigits 10 i.natAbs, isBlank c = false := fun c hc =>
    isBlank_of_isDigit (Nat.isDigit_of_mem_toDigits (by decide) (by decide) hc)
  rw [toList_toString] at h
  split at h
  · rcases List.mem_cons.mp h with rfl | h
    · decide
    · exact hdigit c h
  · exact hdigit c h

namespace Segment

/-! ## Segments -/

/-- The texts of a segment: a key after a point or between quotes, an index between brackets, and
the wildcard either way. -/
inductive IsText : Segment → List Char → Prop where
  | plain {name : String} (hplain : isPlainKey name.toList = true) :
      IsText (.key name) ('.' :: name.toList)
  | quoted {name : String} (hline : '\n' ∉ name.toList) (hquote : '\'' ∉ name.toList) :
      IsText (.key name) ('[' :: '\'' :: (name.toList ++ ['\'', ']']))
  /-- An index of no more digits than are read. -/
  | index {i : Int} (hdigits : (Nat.toDigits 10 i.natAbs).length ≤ maxIntegerDigits) :
      IsText (.index i) ('[' :: ((toString i).toList ++ [']']))
  | bracketed : IsText .every ['[', '*', ']']
  | pointed : IsText .every ['.', '*']

theorem isPlainKey_iff {cs : List Char} :
    isPlainKey cs = true ↔ cs ≠ [] ∧ (∀ c ∈ cs, isKeyChar c = true) ∧ cs ≠ ['*'] := by
  simp [isPlainKey, and_assoc]

/-- A key without the closing quote is read up to it. -/
theorem readQuoted?_of_not_mem {mark : Char} (hmark : mark ≠ '\n') : ∀ {cs : List Char},
    '\n' ∉ cs → mark ∉ cs → readQuoted? mark (cs ++ [mark, ']']) = some (cs, [])
  | [], _, _ => by
    simp [readQuoted?, closeBracket?, isBlank]
  | c :: cs, hline, hquote => by
    rw [List.mem_cons, not_or] at hline hquote
    rw [List.cons_append, readQuoted?, if_neg fun h => hquote.1 h.symm]
    dsimp only
    rw [if_neg fun h => hline.1 h.symm, readQuoted?_of_not_mem hmark hline.2 hquote.2]
    rfl

theorem readIndex?_toString (i : Int) : readIndex? ((toString i).toList ++ [']']) =
    some (decide (i < 0), Nat.toDigits 10 i.natAbs, []) := by
  have hdigits : ∀ c ∈ Nat.toDigits 10 i.natAbs, isDecimalDigit c = true := fun c hc =>
    isDecimalDigit_of_isDigit (Nat.isDigit_of_mem_toDigits (by decide) (by decide) hc)
  have hbracket : isDecimalDigit ']' = false := by decide
  have hclose : closeBracket? [']'] = some [] := by decide
  have hunsigned : ∀ negative, readUnsigned? negative (Nat.toDigits 10 i.natAbs ++ [']']) =
      some (negative, Nat.toDigits 10 i.natAbs, []) := fun negative => by
    rw [readUnsigned?, List.takeWhile_append_of_pos hdigits, List.dropWhile_append_of_pos hdigits,
      List.takeWhile_cons_of_neg (by simp [hbracket]),
      List.dropWhile_cons_of_neg (by simp [hbracket]), List.append_nil, hclose, if_neg (by simp [Nat.toDigits_ne_nil])]
    rfl
  rw [toList_toString]
  split
  · next hneg => rw [List.cons_append, readIndex?_minus, hunsigned, decide_eq_true hneg]
  · next hneg =>
    have hsign : (Nat.toDigits 10 i.natAbs ++ [']']).head? ≠ some '-' := fun hhead => by
      have hmem := List.mem_of_mem_head? hhead
      simp only [List.mem_append, List.mem_singleton] at hmem
      rcases hmem with hmem | h
      · exact absurd (hdigits '-' hmem) (by decide)
      · cases h
    rw [readIndex?_of_head? hsign, hunsigned, decide_eq_false hneg]

theorem ofDigits_toDigits {i : Int} (h : (Nat.toDigits 10 i.natAbs).length ≤ maxIntegerDigits) :
    ofDigits (decide (i < 0)) (Nat.toDigits 10 i.natAbs) = .ok (.index i) := by
  rw [ofDigits, if_neg (Nat.not_lt.mpr h), digitsValue_toDigits]
  have hvalue : (if decide (i < 0) = true then -(i.natAbs : Int) else (i.natAbs : Int)) = i := by
    simp only [decide_eq_true_eq]
    omega
  exact congrArg (Except.ok ∘ Segment.index) hvalue

/-- **Each text of a segment is read as that segment.** -/
theorem read?_of_isText {s : Segment} {cs : List Char} (h : IsText s cs) :
    read? cs = .ok (some (s, [])) := by
  cases h with
  | @plain name hplain =>
    obtain ⟨hne, hkey, hstar⟩ := isPlainKey_iff.mp hplain
    rw [read?, List.takeWhile_eq_self_iff.mpr hkey, List.dropWhile_eq_nil_iff.mpr hkey]
    simp [hne, ofKey, hstar]
  | @quoted name hline hquote =>
    have hindex : readIndex? ('\'' :: (name.toList ++ ['\'', ']'])) = none :=
      readIndex?_eq_none (by decide) (by decide) _
    rw [read?, readBracket?]
    dsimp only
    rw [List.dropWhile_cons_of_neg (by decide), hindex]
    simp [readQuoted?_of_not_mem (by decide) hline hquote]
  | @index i hdigits =>
    have hblank : ((toString i).toList ++ [']']).dropWhile isBlank =
        (toString i).toList ++ [']'] := by
      rw [List.dropWhile_eq_self_iff]
      intro hlength hfirst
      rcases List.mem_append.mp (List.getElem_mem hlength) with hmem | hmem
      · rw [isBlank_of_mem_toString hmem] at hfirst
        cases hfirst
      · rw [List.mem_singleton.mp hmem] at hfirst
        cases hfirst
    rw [read?, readBracket?]
    dsimp only
    rw [hblank, readIndex?_toString]
    dsimp only
    rw [ofDigits_toDigits hdigits]
    rfl
  | bracketed => rfl
  | pointed => rfl

theorem IsText.isSequel {s : Segment} {cs : List Char} (h : IsText s cs) : IsSequel cs := by
  cases h with
  | plain _ => exact isSequel_cons (.inl rfl)
  | quoted _ _ => exact isSequel_cons (.inr rfl)
  | index _ => exact isSequel_cons (.inr rfl)
  | bracketed => exact isSequel_cons (.inr rfl)
  | pointed => exact isSequel_cons (.inl rfl)

theorem ofChars_of_isText {s : Segment} {cs : List Char} (h : IsText s cs) :
    ofChars cs = .ok (some [s]) := by
  obtain ⟨c, cs, rfl⟩ : ∃ c ds, cs = c :: ds := by cases h <;> exact ⟨_, _, rfl⟩
  rw [ofChars, withPoint_of_isSequel h.isSequel, readAll, read?_of_isText h]
  rfl

/-- A segment that can be written: a key in quotes holds neither a line end nor the quote, and an
index has no more digits than are read. -/
def IsWritable : Segment → Prop
  | .key name => isPlainKey name.toList = true ∨ '\n' ∉ name.toList ∧ '\'' ∉ name.toList
  | .index i => (Nat.toDigits 10 i.natAbs).length ≤ maxIntegerDigits
  | .every => True

theorem IsWritable.isText_render {s : Segment} (h : s.IsWritable) : IsText s s.render := by
  cases s with
  | key name =>
    rw [render]
    split
    · next hplain => exact .plain hplain
    · next hplain => exact .quoted (h.resolve_left hplain).1 (h.resolve_left hplain).2
  | index i => exact .index h
  | every => exact .bracketed

/-! ## Paths -/

/-- A text that writes segments one after another. -/
inductive Written : List Segment → List Char → Prop where
  | nil : Written [] []
  | cons {s : Segment} {text : List Char} {ss : List Segment} {cs : List Char}
      (hs : IsText s text) (hss : Written ss cs) : Written (s :: ss) (text ++ cs)

theorem Written.isSequel {ss : List Segment} {cs : List Char} (h : Written ss cs) :
    IsSequel cs := by
  cases h with
  | nil => exact isSequel_nil
  | @cons s text ss cs hs hss =>
    obtain ⟨c, text, rfl⟩ : ∃ c ds, text = c :: ds := by cases hs <;> exact ⟨_, _, rfl⟩
    exact isSequel_cons (hs.isSequel c rfl)

/-- **A path is read back as the segments that it writes.** -/
theorem ofChars_of_written {ss : List Segment} {cs : List Char} (h : Written ss cs) :
    ofChars cs = .ok (some ss) := by
  induction h with
  | nil => rfl
  | @cons s text ss cs hs hss ih =>
    rw [← withPoint_of_isSequel hss.isSequel, ofChars_append (ofChars_of_isText hs), ih]
    rfl

/-- Segments in their plainest form are read back. -/
theorem ofChars_flatMap_render {ss : List Segment} (h : ∀ s ∈ ss, s.IsWritable) :
    ofChars (ss.flatMap render) = .ok (some ss) := by
  refine ofChars_of_written ?_
  induction ss with
  | nil => exact .nil
  | cons s ss ih =>
    rw [List.forall_mem_cons] at h
    exact .cons h.1.isText_render (ih h.2)

/-- What stands behind the point of a text is no sequel, so that reading puts the point back. -/
theorem IsText.withPoint_of_point {s : Segment} {rest : List Char} (h : IsText s ('.' :: rest))
    (cs : List Char) : withPoint (rest ++ cs) = '.' :: (rest ++ cs) := by
  have hputs : ∀ {c : Char}, isKeyChar c = true → ∀ ds, withPoint (c :: ds) = '.' :: c :: ds :=
    fun {c} hc ds => by
      simp only [isKeyChar, Bool.and_eq_true, bne_iff_ne] at hc
      rw [withPoint, if_neg (by simp [hc.1.1, hc.1.2])]
  cases h with
  | @plain name hplain =>
    obtain ⟨hne, hkey, -⟩ := isPlainKey_iff.mp hplain
    cases hname : name.toList with
    | nil => exact absurd hname hne
    | cons c ds => exact hputs (hkey c (hname ▸ List.mem_cons_self ..)) _
  | pointed => exact hputs (by decide) cs

/-- The point that a path begins with can be left out. -/
theorem ofChars_of_written_point {ss : List Segment} {rest : List Char}
    (h : Written ss ('.' :: rest)) : ofChars rest = .ok (some ss) := by
  have hpoint : withPoint rest = '.' :: rest := by
    generalize hcs : '.' :: rest = cs at h
    cases h with
    | nil => cases hcs
    | @cons s text ss ds hs hss =>
      obtain ⟨c, text, rfl⟩ : ∃ c ds, text = c :: ds := by cases hs <;> exact ⟨_, _, rfl⟩
      obtain ⟨rfl, rfl⟩ := List.cons.inj hcs
      exact hs.withPoint_of_point ds
  have hread := ofChars_of_written h
  rw [ofChars, withPoint_of_isSequel h.isSequel] at hread
  rw [ofChars, hpoint, ← hread]
  exact (readAll_eq_of_le (Nat.le_refl (rest.length + 1)) (Nat.le_succ _)).symm

end Segment

namespace Path

open Segment

/-- **Reading undoes writing.**  A text that writes segments one after another is read back as just
these, also without the point that it may begin with; so the path of such a text leads from a root
to where its segments lead. -/
theorem resolve_of_written {ss : List Segment} {cs : List Char} (h : Written ss cs) :
    (ofChars cs = .ok (some ss) ∧ ∀ rest, cs = '.' :: rest → ofChars rest = .ok (some ss)) ∧
    ∀ text, (text = cs ∨ cs = '.' :: text) → ∀ root : Value,
      resolve (rooted text) root = .ok (together (walk ss root)) := by
  have hpoint : ∀ rest, cs = '.' :: rest → ofChars rest = .ok (some ss) := fun rest hcs =>
    ofChars_of_written_point (hcs ▸ h)
  refine ⟨⟨ofChars_of_written h, hpoint⟩, fun text htext root => ?_⟩
  have hread : segments (rooted text) = .ok (some ss) := by
    rw [segments_rooted]
    rcases htext with rfl | hcs
    · exact ofChars_of_written h
    · exact hpoint text hcs
  rw [resolve_of_isRooted (isRooted_rooted text) hread, resolve_eq_together]

/-- A key with a blank, a key in quotes with what ends other keys, an index from the back and a
wildcard. -/
theorem resolve_of_written_mixed :
    let ss : List Segment := [.key "a b", .key "x.y[0]", .index (-1), .every]
    let rest := "a b['x.y[0]'][-1].*".toList
    (Written ss ('.' :: rest)) ∧ ofChars rest = .ok (some ss) ∧
    ∀ root : Value, resolve (rooted rest) root = .ok (together (walk ss root)) := by
  intro ss rest
  have hwritten : Written ss ('.' :: rest) :=
    .cons (.plain (by decide)) <| .cons (.quoted (by decide) (by decide)) <|
      .cons (.index (by decide)) <| .cons .pointed .nil
  obtain ⟨⟨-, hpoint⟩, hresolve⟩ := resolve_of_written hwritten
  exact ⟨hwritten, hpoint rest rfl, hresolve rest (.inr rfl)⟩

end Path

end Verdict
