import Verdict.Evaluation.Constraint
import Verdict.Number.Power
import Verdict.Validation.Grammar

/-!
# Proofs/Limit — the limit on digits is all that stops a reading or a writing

    a path is read      unless it has too many digits in a row
    a value is written  unless an integer in it has too many digits

A value that **exceeds** the limit with a fault holds such a text or such an integer.  Paths are read
and values are written by computations that only the faults stop with which the path or the value
exceeds the limit (`Path.stopsOnly_resolve`, `Value.stopsOnly_plain`).
-/

namespace Except

variable {ε α β : Type}

theorem bind_eq_ok_iff {x : Except ε α} {g : α → Except ε β} {b : β} :
    (x >>= g) = .ok b ↔ ∃ a, x = .ok a ∧ g a = .ok b := by
  cases x with
  | error e => exact ⟨fun h => (by cases h), fun ⟨_, h, _⟩ => (by cases h)⟩
  | ok a => exact ⟨fun h => ⟨a, rfl, h⟩, fun ⟨_, ha, h⟩ => by cases ha; exact h⟩

theorem bind_eq_error_iff {x : Except ε α} {g : α → Except ε β} {e : ε} :
    (x >>= g) = .error e ↔ x = .error e ∨ ∃ a, x = .ok a ∧ g a = .error e := by
  cases x with
  | error e' =>
    exact ⟨fun h => .inl (by cases h; rfl), fun h => h.elim (fun h => by cases h; rfl)
      fun ⟨_, h, _⟩ => (by cases h)⟩
  | ok a =>
    exact ⟨fun h => .inr ⟨a, rfl, h⟩, fun h => h.elim (fun h => (by cases h))
      fun ⟨_, ha, h⟩ => by cases ha; exact h⟩

theorem map_eq_ok_iff {x : Except ε α} {g : α → β} {b : β} :
    x.map g = .ok b ↔ ∃ a, x = .ok a ∧ g a = b := by
  cases x with
  | error e => exact ⟨fun h => (by cases h), fun ⟨_, h, _⟩ => (by cases h)⟩
  | ok a => exact ⟨fun h => ⟨a, rfl, by cases h; rfl⟩, fun ⟨_, ha, h⟩ => by cases ha; cases h; rfl⟩

theorem map_eq_error_iff {x : Except ε α} {g : α → β} {e : ε} :
    x.map g = .error e ↔ x = .error e := by
  cases x with
  | error e' => exact ⟨fun h => (by cases h; rfl), fun h => (by cases h; rfl)⟩
  | ok a => exact ⟨fun h => (by cases h), fun h => (by cases h)⟩

theorem exists_eq_ok_of_isSome {x : Except ε α} (h : x.toOption.isSome = true) :
    ∃ a, x = .ok a := by
  cases x with
  | error e => cases h
  | ok a => exact ⟨a, rfl⟩

end Except

namespace Verdict

/-- Whether a fault is the limit on digits, met in writing or in reading. -/
def Fault.isDigitLimit : Fault → Bool
  | .integerTooLong | .numeralTooLong _ => true
  | _ => false

/-- A computation that only the given faults stop. -/
def StopsOnly {α : Type} (P : Fault → Prop) (x : Except Fault α) : Prop :=
  ∀ f, x = .error f → P f

/-- A computation that nothing but the limit on digits stops. -/
def StopsAtDigits {α : Type} (x : Except Fault α) : Prop :=
  ∀ f, x = .error f → f.isDigitLimit = true

namespace StopsOnly

variable {α β : Type} {P Q : Fault → Prop}

theorem ok (a : α) : StopsOnly P (.ok a : Except Fault α) := fun _ h => by cases h

theorem error {f : Fault} (h : P f) : StopsOnly P (.error f : Except Fault α) :=
  fun _ hf => by cases hf; exact h

theorem mono {x : Except Fault α} (hx : StopsOnly P x) (h : ∀ f, P f → Q f) : StopsOnly Q x :=
  fun f hf => h f (hx f hf)

/-- **Running one after another stops at nothing else**, if neither does. -/
theorem bind {x : Except Fault α} {g : α → Except Fault β} (hx : StopsOnly P x)
    (hg : ∀ a, x = .ok a → StopsOnly P (g a)) : StopsOnly P (x >>= g) := by
  intro f hf
  rcases Except.bind_eq_error_iff.mp hf with h | ⟨a, ha, h⟩
  · exact hx f h
  · exact hg a ha f h

theorem map {x : Except Fault α} (hx : StopsOnly P x) (g : α → β) : StopsOnly P (x.map g) :=
  fun f hf => hx f (Except.map_eq_error_iff.mp hf)

theorem foldlM {g : β → α → Except Fault β} : ∀ {as : List α},
    (∀ a ∈ as, ∀ b, StopsOnly P (g b a)) → ∀ b, StopsOnly P (as.foldlM g b)
  | [], _, b => by
    rw [List.foldlM_nil]
    exact ok b
  | a :: as, hg, b => by
    obtain ⟨ha, has⟩ := List.forall_mem_cons.mp hg
    rw [List.foldlM_cons]
    exact (ha b).bind fun b' _ => foldlM has b'

end StopsOnly

/-! ## What exceeds the limit -/

/-- A text with more digits in a row than are read, which is this fault. -/
inductive LongRun (cs : List Char) : Fault → Prop
  | mk {digits : List Char} : digits <:+: cs → (∀ c ∈ digits, isDecimalDigit c = true) →
      maxIntegerDigits < digits.length → LongRun cs (.numeralTooLong digits.length)

theorem LongRun.mono {cs ds : List Char} {f : Fault} (h : LongRun cs f) (hcs : cs <:+: ds) :
    LongRun ds f := by
  obtain ⟨hpart, hdigits, hlong⟩ := h
  exact ⟨hpart.trans hcs, hdigits, hlong⟩

theorem LongRun.lt_length {cs : List Char} {f : Fault} (h : LongRun cs f) :
    maxIntegerDigits < cs.length := by
  obtain ⟨hpart, _, hlong⟩ := h
  exact Nat.lt_of_lt_of_le hlong hpart.length_le

/-- A character that is no digit can be left out before a run of digits. -/
theorem LongRun.of_cons {c : Char} {cs : List Char} {f : Fault} (h : LongRun (c :: cs) f)
    (hc : isDecimalDigit c = false) : LongRun cs f := by
  obtain @⟨digits, hpart, hdigits, hlong⟩ := h
  rcases List.infix_cons_iff.mp hpart with hprefix | hpart
  · cases digits with
    | nil => cases hlong
    | cons d digits =>
      rw [(List.cons_prefix_cons.mp hprefix).1] at hdigits
      exact absurd (hdigits c (List.mem_cons_self ..)) (by simp [hc])
  · exact ⟨hpart, hdigits, hlong⟩

namespace Value

/-- A value that holds an integer with more digits than are written, which is this fault. -/
inductive HoldsLong (v : Value) : Fault → Prop
  | mk {i : Int} : Fragment (.int i) v → tenTo maxIntegerDigits ≤ i.natAbs →
      HoldsLong v .integerTooLong

/-- A value that holds an integer too long to be written, or a text with too many digits to be
read. -/
inductive Exceeds (v : Value) (f : Fault) : Prop
  | integer : v.HoldsLong f → Exceeds v f
  | digits {s : String} : Fragment (.str s) v → LongRun s.toList f → Exceeds v f

section

variable {v w : Value} {f : Fault}

namespace HoldsLong

theorem of_fragment (h : v.HoldsLong f) (hv : Fragment v w) : w.HoldsLong f := by
  obtain ⟨hi, hlong⟩ := h
  exact ⟨hi.trans hv, hlong⟩

theorem item {mark : Mark} {items : List Value} (h : v.HoldsLong f) (hv : v ∈ items) :
    HoldsLong (.list mark items) f := h.of_fragment (.item hv (.self v))

theorem field {mark : Mark} {key : String} {fields : List (String × Value)} (h : v.HoldsLong f)
    (hv : (key, v) ∈ fields) : HoldsLong (.object mark fields) f :=
  h.of_fragment (.field hv (.self v))

end HoldsLong

namespace Exceeds

theorem isDigitLimit (h : v.Exceeds f) : f.isDigitLimit = true := by
  rcases h with ⟨⟨_, _⟩⟩ | ⟨_, ⟨_, _, _⟩⟩ <;> rfl

theorem of_fragment (h : v.Exceeds f) (hv : Fragment v w) : w.Exceeds f := by
  cases h with
  | integer hlong => exact .integer (hlong.of_fragment hv)
  | digits hs hrun => exact .digits (hs.trans hv) hrun

theorem longRun {s : String} (h : Exceeds (.str s) f) : LongRun s.toList f := by
  rcases h with ⟨⟨hi, _⟩⟩ | ⟨hs, hrun⟩
  · cases hi
  · cases hs
    exact hrun

theorem not_null : ¬ Exceeds .null f := by
  rintro (⟨⟨hi, _⟩⟩ | ⟨hs, _⟩)
  · cases hi
  · cases hs

theorem not_missing : ¬ Exceeds .missing f := fun h =>
  absurd h.longRun.lt_length (by decide)

/-- A list exceeds the limit with one of its items. -/
theorem of_list {mark : Mark} {items : List Value} (h : Exceeds (.list mark items) f) :
    ∃ item ∈ items, item.Exceeds f := by
  rcases h with ⟨⟨hi, hlong⟩⟩ | ⟨hs, hrun⟩
  · cases hi with
    | item hmem hi => exact ⟨_, hmem, .integer ⟨hi, hlong⟩⟩
  · cases hs with
    | item hmem hs => exact ⟨_, hmem, .digits hs hrun⟩

/-- An object exceeds the limit with one of its fields. -/
theorem of_object {mark : Mark} {fields : List (String × Value)}
    (h : Exceeds (.object mark fields) f) : ∃ e ∈ fields, e.2.Exceeds f := by
  rcases h with ⟨⟨hi, hlong⟩⟩ | ⟨hs, hrun⟩
  · cases hi with
    | field hmem hi => exact ⟨_, hmem, .integer ⟨hi, hlong⟩⟩
  · cases hs with
    | field hmem hs => exact ⟨_, hmem, .digits hs hrun⟩

theorem item {mark : Mark} {items : List Value} (h : v.Exceeds f) (hv : v ∈ items) :
    Exceeds (.list mark items) f := h.of_fragment (.item hv (.self v))

theorem field {mark : Mark} {key : String} {fields : List (String × Value)} (h : v.Exceeds f)
    (hv : (key, v) ∈ fields) : Exceeds (.object mark fields) f := h.of_fragment (.field hv (.self v))

end Exceeds

end

/-! ## Writing -/

theorem length_toString_le_iff {n places : Nat} (h : 0 < places) :
    (toString n).length ≤ places ↔ n < tenTo places := by
  rw [Nat.toString_eq_ofList_toDigits, String.length_ofList]
  exact Nat.length_toDigits_le_iff (by decide) h

theorem stopsOnly_integerText (i : Int) : StopsOnly (HoldsLong (.int i)) (integerText i) := by
  unfold integerText integerText?
  dsimp only
  split
  · exact .ok _
  · next h =>
    refine .error ⟨.self _, Nat.le_of_not_lt fun hlt => ?_⟩
    rw [if_neg (Nat.not_lt.mpr ((length_toString_le_iff (by decide)).mpr hlt))] at h
    cases h

mutual

theorem stopsOnly_display : ∀ v : Value, StopsOnly v.HoldsLong v.display
  | .null | .bool _ | .float _ | .str _ | .date _ | .dateTime _ => by
    rw [display]
    exact .ok _
  | .int i => by
    rw [display]
    exact stopsOnly_integerText i
  | .list mark items => by
    rw [display]
    exact (stopsOnly_displayItems items fun _ h => h).bind fun _ _ => .ok _
  | .object mark fields => by
    rw [display]
    exact (stopsOnly_displayFields fields fun _ h => h).bind fun _ _ => .ok _

theorem stopsOnly_displayItems {mark : Mark} {items : List Value} : ∀ rest : List Value,
    rest ⊆ items → StopsOnly (HoldsLong (.list mark items)) (displayItems rest)
  | [], _ => by
    rw [displayItems]
    exact .ok _
  | v :: rest, h => by
    rw [List.cons_subset] at h
    rw [displayItems]
    exact ((stopsOnly_display v).mono fun _ hf => hf.item h.1).bind fun _ _ =>
      (stopsOnly_displayItems rest h.2).bind fun _ _ => .ok _

theorem stopsOnly_displayFields {mark : Mark} {fields : List (String × Value)} :
    ∀ rest : List (String × Value), rest ⊆ fields →
      StopsOnly (HoldsLong (.object mark fields)) (displayFields rest)
  | [], _ => by
    rw [displayFields]
    exact .ok _
  | (k, v) :: rest, h => by
    rw [List.cons_subset] at h
    rw [displayFields]
    exact ((stopsOnly_display v).mono fun _ hf => hf.field h.1).bind fun _ _ =>
      (stopsOnly_displayFields rest h.2).bind fun _ _ => .ok _

end

/-- **Only integers of too many digits keep a value from being written.** -/
theorem stopsOnly_plain (v : Value) : StopsOnly v.HoldsLong v.plain := by
  unfold plain
  split
  · exact .ok _
  · exact .ok _
  · exact .ok _
  · exact stopsOnly_display _

/-- An integer of too many digits is not written. -/
theorem plain_eq_error {i : Int} (h : tenTo maxIntegerDigits ≤ i.natAbs) :
    (int i).plain = .error .integerTooLong := by
  have hlength : maxIntegerDigits < (toString i.natAbs).length :=
    Nat.lt_of_not_le (mt (length_toString_le_iff (by decide)).mp (Nat.not_lt.mpr h))
  have htext : integerText? i = none := if_pos hlength
  change integerText i = _
  rw [integerText, htext]

theorem stopsOnly_writeScalar (v : Value) : StopsOnly v.HoldsLong v.writeScalar := by
  unfold writeScalar
  split
  · exact .ok _
  · exact .ok _
  · exact stopsOnly_integerText _
  · exact .ok _
  · exact .ok _
  · exact (stopsOnly_plain _).map _

mutual

theorem stopsOnly_write : ∀ v : Value, StopsOnly v.HoldsLong v.write
  | .null | .bool _ | .int _ | .float _ | .str _ | .date _ | .dateTime _ => by
    rw [write]
    exact stopsOnly_writeScalar _
  | .list mark items => by
    rw [write]
    exact (stopsOnly_writeItems items fun _ h => h).bind fun _ _ => .ok _
  | .object mark fields => by
    rw [write]
    exact (stopsOnly_writeFields fields fun _ h => h).bind fun _ _ => .ok _

theorem stopsOnly_writeItems {mark : Mark} {items : List Value} : ∀ rest : List Value,
    rest ⊆ items → StopsOnly (HoldsLong (.list mark items)) (writeItems rest)
  | [], _ => by
    rw [writeItems]
    exact .ok _
  | v :: rest, h => by
    rw [List.cons_subset] at h
    rw [writeItems]
    exact ((stopsOnly_write v).mono fun _ hf => hf.item h.1).bind fun _ _ =>
      (stopsOnly_writeItems rest h.2).bind fun _ _ => .ok _

theorem stopsOnly_writeFields {mark : Mark} {fields : List (String × Value)} :
    ∀ rest : List (String × Value), rest ⊆ fields →
      StopsOnly (HoldsLong (.object mark fields)) (writeFields rest)
  | [], _ => by
    rw [writeFields]
    exact .ok _
  | (k, v) :: rest, h => by
    rw [List.cons_subset] at h
    rw [writeFields]
    exact ((stopsOnly_write v).mono fun _ hf => hf.field h.1).bind fun _ _ =>
      (stopsOnly_writeFields rest h.2).bind fun _ _ => .ok _

end

mutual

theorem stopsOnly_readable : ∀ v : Value, StopsOnly v.HoldsLong v.readable
  | .null | .bool _ | .str _ => by
    rw [readable]
    exact .ok _
  | .int _ | .float _ | .date _ | .dateTime _ => by
    rw [readable]
    exact stopsOnly_plain _
  | .list mark items => by
    rw [readable]
    exact (stopsOnly_readableItems items fun _ h => h).map _
  | .object _ _ => by
    rw [readable]
    exact stopsOnly_write _

theorem stopsOnly_readableItems {mark : Mark} {items : List Value} : ∀ rest : List Value,
    rest ⊆ items → StopsOnly (HoldsLong (.list mark items)) (readable.readableItems rest)
  | [], _ => by
    rw [readable.readableItems]
    exact .ok _
  | v :: rest, h => by
    rw [List.cons_subset] at h
    rw [readable.readableItems]
    exact ((stopsOnly_readable v).mono fun _ hf => hf.item h.1).bind fun _ _ =>
      (stopsOnly_readableItems rest h.2).bind fun _ _ => .ok _

end

end Value

/-! ## Reading paths -/

namespace Segment

theorem suffix_of_closeBracket? {cs rest : List Char} (h : closeBracket? cs = some rest) :
    rest <:+ cs := by
  unfold closeBracket? at h
  split at h
  · next heq =>
    cases h
    exact ((List.suffix_cons ..).trans (heq ▸ List.dropWhile_suffix _))
  · cases h

/-- The digits of an index stand in the text, and what follows the index ends it. -/
theorem suffix_of_readIndex? {cs digits rest : List Char} {negative : Bool}
    (h : readIndex? cs = some (negative, digits, rest)) :
    rest <:+ cs ∧ digits <:+: cs ∧ ∀ c ∈ digits, isDecimalDigit c = true := by
  unfold readIndex? at h
  split at h
  next sign body hsplit =>
  have hbody : body <:+ cs := by
    split at hsplit <;> cases hsplit
    · exact List.suffix_cons ..
    · exact List.suffix_refl _
  dsimp only at h
  split at h
  · cases h
  · obtain ⟨_, hclose, heq⟩ := Option.map_eq_some_iff.mp h
    cases heq
    refine ⟨(suffix_of_closeBracket? hclose).trans ((List.dropWhile_suffix _).trans hbody),
      (List.takeWhile_prefix _).isInfix.trans hbody.isInfix, fun c hc => ?_⟩
    exact List.all_eq_true.mp (List.all_takeWhile ..) c hc

theorem suffix_of_readQuoted? {mark : Char} : ∀ {cs inner rest : List Char},
    readQuoted? mark cs = some (inner, rest) → rest <:+ cs
  | [], _, _, h => by cases h
  | c :: cs, inner, rest, h => by
    rw [readQuoted?] at h
    split at h
    · next heq =>
      cases h
      split at heq
      · exact (suffix_of_closeBracket? heq).trans (List.suffix_cons ..)
      · cases heq
    · split at h
      · cases h
      · obtain ⟨⟨inner', rest'⟩, hread, heq⟩ := Option.map_eq_some_iff.mp h
        cases heq
        exact (suffix_of_readQuoted? hread).trans (List.suffix_cons ..)

theorem suffix_of_readBracket? {cs rest : List Char} {segment : Segment}
    (h : readBracket? cs = .ok (some (segment, rest))) : rest <:+ cs := by
  unfold readBracket? at h
  dsimp only at h
  refine List.IsSuffix.trans ?_ (List.dropWhile_suffix (l := cs) isBlank)
  split at h
  · next hindex =>
    obtain ⟨_, _, heq⟩ := Except.map_eq_ok_iff.mp h
    cases heq
    exact (suffix_of_readIndex? hindex).1
  · replace h := Except.ok.inj h
    split at h
    · next heq =>
      obtain ⟨_, hclose, hpair⟩ := Option.map_eq_some_iff.mp h
      cases hpair
      exact heq ▸ (suffix_of_closeBracket? hclose).trans (List.suffix_cons ..)
    · next heq =>
      split at h
      · obtain ⟨_, hquoted, hpair⟩ := Option.map_eq_some_iff.mp h
        cases hpair
        exact heq ▸ (suffix_of_readQuoted? hquoted).trans (List.suffix_cons ..)
      · cases h
    · cases h

theorem suffix_of_read? {cs rest : List Char} {segment : Segment}
    (h : read? cs = .ok (some (segment, rest))) : rest <:+ cs := by
  unfold read? at h
  split at h
  · dsimp only at h
    split at h
    · cases h
    · cases h
      exact (List.dropWhile_suffix _).trans (List.suffix_cons ..)
  · exact (suffix_of_readBracket? h).trans (List.suffix_cons ..)
  · cases h

/-- Only digits that are too many cannot be read. -/
theorem stopsOnly_readBracket? (cs : List Char) : StopsOnly (LongRun cs) (readBracket? cs) := by
  unfold readBracket?
  dsimp only
  split
  · next negative digits rest hindex =>
    obtain ⟨_, hpart, hdigits⟩ := suffix_of_readIndex? hindex
    refine StopsOnly.map ?_ _
    unfold ofDigits
    split
    · next hlong =>
      exact .error ⟨hpart.trans (List.dropWhile_suffix _).isInfix, hdigits, hlong⟩
    · exact .ok _
  · exact .ok _

theorem stopsOnly_read? (cs : List Char) : StopsOnly (LongRun cs) (read? cs) := by
  unfold read?
  split
  · exact .ok _
  · exact (stopsOnly_readBracket? _).mono fun _ h => h.mono (List.suffix_cons ..).isInfix
  · exact .ok _

theorem stopsOnly_readAll : ∀ (fuel : Nat) (cs : List Char), StopsOnly (LongRun cs) (readAll fuel cs)
  | 0, [] | _ + 1, [] => .ok _
  | 0, _ :: _ => .ok _
  | fuel + 1, c :: cs => by
    rw [readAll]
    split
    · next f h => exact .error (stopsOnly_read? (c :: cs) f h)
    · exact .ok _
    · next segment rest h =>
      have hrest : rest <:+: c :: cs := (suffix_of_read? h).isInfix
      split
      · next f h => exact .error ((stopsOnly_readAll fuel rest f h).mono hrest)
      · exact .ok _
      · exact .ok _

theorem stopsOnly_ofChars (cs : List Char) : StopsOnly (LongRun cs) (ofChars cs) := by
  refine (stopsOnly_readAll _ _).mono fun f h => ?_
  unfold withPoint at h
  split at h
  · exact h
  · split at h
    · exact h
    · exact h.of_cons (by decide)

theorem readIndex?_replicate {n : Nat} (h : 0 < n) :
    readIndex? (List.replicate n '1' ++ [']']) = some (false, List.replicate n '1', []) := by
  have hdigit : isDecimalDigit '1' = true := by decide
  have hbracket : isDecimalDigit ']' = false := by decide
  have hclose : closeBracket? [']'] = some [] := by decide
  have htake : (List.replicate n '1' ++ [']']).takeWhile isDecimalDigit = List.replicate n '1' := by
    rw [List.takeWhile_append_of_pos (by simp [hdigit])]
    simp [hbracket]
  have hdrop : (List.replicate n '1' ++ [']']).dropWhile isDecimalDigit = [']'] := by
    rw [List.dropWhile_append_of_pos (by simp [hdigit])]
    simp [hbracket]
  obtain ⟨m, rfl⟩ : ∃ m, n = m + 1 := ⟨n - 1, by omega⟩
  unfold readIndex?
  rw [List.replicate_succ, List.cons_append] at htake hdrop ⊢
  simp [htake, hdrop, hclose]

/-- The characters of an index of `n` digits, between brackets. -/
def longIndex (n : Nat) : List Char := '[' :: (List.replicate n '1' ++ [']'])

/-- **An index of too many digits is not read.** -/
theorem ofChars_longIndex {n : Nat} (h : maxIntegerDigits < n) :
    ofChars (longIndex n) = .error (.numeralTooLong n) := by
  have hn : 0 < n := Nat.zero_lt_of_lt h
  have hblank : (List.replicate n '1' ++ [']']).dropWhile isBlank =
      List.replicate n '1' ++ [']'] := by
    obtain ⟨m, rfl⟩ : ∃ m, n = m + 1 := ⟨n - 1, by omega⟩
    have : isBlank '1' = false := by decide
    simp [List.replicate_succ, this]
  have hread : read? (longIndex n) = .error (.numeralTooLong n) := by
    simp [longIndex, read?, readBracket?, hblank, readIndex?_replicate hn, ofDigits, h, Except.map]
  have hpoint : withPoint (longIndex n) = longIndex n := by simp [longIndex, withPoint]
  rw [ofChars, hpoint]
  unfold longIndex at hread ⊢
  rw [readAll, hread]

/-! ### What paths lead to -/

theorem fragment_of_step {s : Segment} {v w : Value} (h : w ∈ s.step v) : Fragment w v := by
  unfold step at h
  split at h
  · exact .of_get? (Option.mem_toList.mp h)
  · obtain ⟨n, _, hitem⟩ := Option.bind_eq_some_iff.mp (Option.mem_toList.mp h)
    exact .item (List.mem_of_getElem? hitem) (.self _)
  · exact .item h (.self _)
  · obtain ⟨e, he, rfl⟩ := List.mem_map.mp h
    exact .field he (.self _)
  · cases h

theorem fragment_of_walk {root : Value} : ∀ {ss : List Segment} {values : List Value},
    (∀ v ∈ values, Fragment v root) →
      ∀ w ∈ ss.foldl (fun values s => values.flatMap s.step) values, Fragment w root
  | [], _, h => h
  | s :: ss, values, h => by
    refine @fragment_of_walk root ss _ fun v hv => ?_
    obtain ⟨u, hu, hstep⟩ := List.mem_flatMap.mp hv
    exact (fragment_of_step hstep).trans (h u hu)

/-- A path leads to a value that exceeds the limit only inside of one that does. -/
theorem exceeds_of_resolve {ss : List Segment} {root v : Value} {f : Fault}
    (h : resolve ss root = some v) (hv : v.Exceeds f) : root.Exceeds f := by
  have hwalk : ∀ w ∈ walk ss root, Fragment w root :=
    fragment_of_walk fun w hw => List.mem_singleton.mp hw ▸ .self _
  unfold resolve at h
  split at h
  · cases h
  · next heq =>
    cases h
    exact hv.of_fragment (hwalk v (by rw [heq]; exact List.mem_singleton_self v))
  · next w rest hrest heq =>
    split at h
    · cases h
      obtain ⟨item, hitem, hf⟩ := hv.of_list
      exact hf.of_fragment (hwalk item (heq ▸ hitem))
    · cases h
      exact hv.of_fragment (hwalk v (by rw [heq]; exact List.mem_cons_self ..))

end Segment

namespace Path

theorem stopsOnly_segments (path : String) :
    StopsOnly (LongRun path.toList) (segments path) := by
  refine (Segment.stopsOnly_ofChars _).mono fun f h => ?_
  split at h
  · exact h.mono (List.drop_suffix 1 _).isInfix
  · exact h

/-- **Only an index of too many digits keeps a path from being read.** -/
theorem stopsOnly_resolve (path : String) (root : Value) :
    StopsOnly (Value.Exceeds (.str path)) (resolve path root) := by
  have hpath := (stopsOnly_segments path).mono fun f h =>
    (Value.Exceeds.digits (.self (.str path)) h : Value.Exceeds (.str path) f)
  unfold resolve
  split
  · exact .ok _
  · split
    · next f h => exact .error (hpath f h)
    · exact .ok _
    · exact .ok _

theorem stopsOnly_resolveValue (path root : Value) :
    StopsOnly path.Exceeds (resolveValue path root) := by
  unfold resolveValue
  split
  · exact stopsOnly_resolve _ root
  · exact .ok _

theorem exceeds_of_resolve {path : String} {root v : Value} {f : Fault}
    (h : resolve path root = .ok (some v)) (hv : v.Exceeds f) : root.Exceeds f := by
  unfold resolve at h
  split at h
  · next hliteral =>
    cases h
    unfold literal? at hliteral
    split at hliteral
    · cases hliteral
    · exact hv.of_fragment (.of_get? hliteral)
  · split at h
    · cases h
    · cases h
    · exact Segment.exceeds_of_resolve (Except.ok.inj h) hv

theorem exceeds_of_resolveValue {path root v : Value} {f : Fault}
    (h : resolveValue path root = .ok (some v)) (hv : v.Exceeds f) : root.Exceeds f := by
  unfold resolveValue at h
  split at h
  · exact exceeds_of_resolve h hv
  · cases h

/-- **An index of too many digits stops the reading of its path**, unless a field has its name. -/
theorem resolve_longIndex {n : Nat} (h : maxIntegerDigits < n) {root : Value}
    (hroot : root.get? (String.ofList (Segment.longIndex n)) = none) :
    resolve (String.ofList (Segment.longIndex n)) root = .error (.numeralTooLong n) := by
  have hrooted : isRooted (String.ofList (Segment.longIndex n)) = false := by
    simp [isRooted, Segment.longIndex]
  simp [resolve, literal?, segments, hrooted, hroot, Segment.ofChars_longIndex h]

end Path

end Verdict
