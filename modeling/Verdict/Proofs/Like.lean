import Verdict.Like
import Verdict.Proofs.Operator.BuiltIn
import Verdict.Proofs.Pattern.Sequence
import Verdict.Proofs.Pattern.Takes

/-!
# Proofs/Like — what a pattern with wildcards describes

    pattern      a\%%_
    elements     literal a, literal %, run, one
    expression   a%.*.
    nodes        char a, char %, any times 0…, any

`Describes wild` says when a pattern describes a text, wildcards standing for `wild` characters.  The
expression of a pattern reads back as the nodes of its elements (`ofText_expression`), which take
what the elements spell (`takes_items`).  The dot takes no line end, so the operator asks for as many
line ends in the text as there are in the pattern (`Registry.like_builtIn`).
-/

namespace Verdict

namespace Like

open Pattern

/-! ## Descriptions -/

/-- A pattern describes a text as a whole.  A percent sign stands for any run of `wild` characters and
an underscore for one of them; a character after a backslash, a backslash at the end and any other
character stand for themselves. -/
inductive Describes (wild : Char → Prop) : List Char → List Char → Prop
  | nothing : Describes wild [] []
  | run {part pattern text : List Char} : (∀ c ∈ part, wild c) → Describes wild pattern text →
      Describes wild ('%' :: pattern) (part ++ text)
  | one {c : Char} {pattern text : List Char} : wild c → Describes wild pattern text →
      Describes wild ('_' :: pattern) (c :: text)
  | escaped {c : Char} {pattern text : List Char} : Describes wild pattern text →
      Describes wild ('\\' :: c :: pattern) (c :: text)
  | final : Describes wild ['\\'] ['\\']
  | itself {c : Char} {pattern text : List Char} : c ≠ '%' → c ≠ '_' → c ≠ '\\' →
      Describes wild pattern text → Describes wild (c :: pattern) (c :: text)

/-- The texts that an element stands for. -/
def Element.Spells (wild : Char → Prop) : Element → List Char → Prop
  | .literal c, part => part = [c]
  | .one, part => ∃ c, wild c ∧ part = [c]
  | .run, part => ∀ c ∈ part, wild c

/-- The texts that elements stand for, one after another. -/
def Spell (wild : Char → Prop) : List Element → List Char → Prop
  | [], text => text = []
  | e :: es, text => ∃ part left, text = part ++ left ∧ e.Spells wild part ∧ Spell wild es left

section

variable {wild wild' : Char → Prop} {pattern text : List Char}

theorem describes_of_spell (h : Spell wild (elements pattern) text) :
    Describes wild pattern text := by
  fun_induction elements pattern generalizing text with
  | case1 =>
    obtain rfl := h
    exact .nothing
  | case2 c rest ih =>
    obtain ⟨_, left, rfl, rfl, hleft⟩ := h
    exact .escaped (ih hleft)
  | case3 rest ih =>
    obtain ⟨part, left, rfl, hpart, hleft⟩ := h
    exact .run hpart (ih hleft)
  | case4 rest ih =>
    obtain ⟨_, left, rfl, ⟨c, hwild, rfl⟩, hleft⟩ := h
    exact .one hwild (ih hleft)
  | case5 c rest hescaped hrun hone ih =>
    obtain ⟨_, left, rfl, rfl, hleft⟩ := h
    by_cases hc : c = '\\'
    · subst hc
      -- a backslash that escapes nothing ends the pattern
      cases rest with
      | nil =>
        obtain rfl := hleft
        exact .final
      | cons d rest => exact (hescaped d rest rfl rfl).elim
    · exact .itself hrun hone hc (ih hleft)

theorem spell_of_describes (h : Describes wild pattern text) :
    Spell wild (elements pattern) text := by
  induction h with
  | nothing => rfl
  | run hpart _ ih => exact ⟨_, _, rfl, hpart, ih⟩
  | one hwild _ ih => exact ⟨[_], _, rfl, ⟨_, hwild, rfl⟩, ih⟩
  | escaped _ ih => exact ⟨[_], _, rfl, rfl, ih⟩
  | final => exact ⟨['\\'], [], rfl, rfl, rfl⟩
  | itself hrun hone hself _ ih =>
    rw [elements]
    · exact ⟨[_], _, rfl, rfl, ih⟩
    · exact fun _ _ heq _ => hself heq
    · exact hrun
    · exact hone

/-- **A pattern describes what its elements spell.** -/
theorem spell_elements_iff : Spell wild (elements pattern) text ↔ Describes wild pattern text :=
  ⟨describes_of_spell, spell_of_describes⟩

/-! ## Line ends -/

theorem Describes.mono (h : Describes wild pattern text) (hwild : ∀ c, wild c → wild' c) :
    Describes wild' pattern text := by
  induction h with
  | nothing => exact .nothing
  | run hpart _ ih => exact .run (fun c hc => hwild c (hpart c hc)) ih
  | one hc _ ih => exact .one (hwild _ hc) ih
  | escaped _ ih => exact .escaped ih
  | final => exact .final
  | itself hrun hone hself _ ih => exact .itself hrun hone hself ih

/-- The line ends of a text are those of the pattern and those that wildcards stand for. -/
theorem Describes.count_le (h : Describes wild pattern text) :
    pattern.count '\n' ≤ text.count '\n' := by
  have hescape : '\\' ≠ '\n' := by decide
  induction h with
  | nothing => exact Nat.le_refl _
  | run _ _ ih =>
    rw [List.count_append, List.count_cons_of_ne (by decide)]
    omega
  | one _ _ ih =>
    rw [List.count_cons_of_ne (by decide), List.count_cons]
    omega
  | escaped _ ih =>
    rw [List.count_cons_of_ne hescape, List.count_cons, List.count_cons]
    omega
  | final => exact Nat.le_refl _
  | itself _ _ _ _ ih =>
    rw [List.count_cons, List.count_cons]
    omega

theorem Describes.count_eq (h : Describes (· ≠ '\n') pattern text) :
    text.count '\n' = pattern.count '\n' := by
  have hescape : '\\' ≠ '\n' := by decide
  induction h with
  | nothing => rfl
  | run hpart _ ih =>
    have hnone := List.count_eq_zero_of_not_mem fun hmem => hpart '\n' hmem rfl
    rw [List.count_append, List.count_cons_of_ne (by decide), hnone, ih, Nat.zero_add]
  | one hc _ ih => rw [List.count_cons_of_ne hc, List.count_cons_of_ne (by decide), ih]
  | escaped _ ih => rw [List.count_cons_of_ne hescape, List.count_cons, List.count_cons, ih]
  | final => rfl
  | itself _ _ _ _ ih => rw [List.count_cons, List.count_cons, ih]

/-- Where all line ends are those of the pattern, wildcards stand for none. -/
theorem Describes.of_count_eq (h : Describes wild pattern text)
    (hcount : text.count '\n' = pattern.count '\n') : Describes (· ≠ '\n') pattern text := by
  have hescape : '\\' ≠ '\n' := by decide
  induction h with
  | nothing => exact .nothing
  | run _ h ih =>
    have hle := h.count_le
    rw [List.count_append, List.count_cons_of_ne (by decide)] at hcount
    refine .run (fun c hc heq => ?_) (ih (by omega))
    have hpos := List.count_pos_iff.mpr (heq ▸ hc)
    omega
  | @one c _ _ _ h ih =>
    have hle := h.count_le
    rw [List.count_cons_of_ne (by decide : '_' ≠ '\n')] at hcount
    by_cases hc : c = '\n'
    · rw [hc, List.count_cons_self] at hcount
      omega
    · rw [List.count_cons_of_ne hc] at hcount
      exact .one hc (ih hcount)
  | escaped _ ih =>
    rw [List.count_cons_of_ne hescape, List.count_cons, List.count_cons] at hcount
    exact .escaped (ih (Nat.add_right_cancel hcount))
  | final => exact .final
  | itself hrun hone hself _ ih =>
    rw [List.count_cons, List.count_cons] at hcount
    exact .itself hrun hone hself (ih (Nat.add_right_cancel hcount))

/-- **Wildcards that stand for anything but line ends describe the texts with as many line ends as the
pattern.** -/
theorem describes_iff_count : Describes (· ≠ '\n') pattern text ↔
    Describes (fun _ => True) pattern text ∧ text.count '\n' = pattern.count '\n' :=
  ⟨fun h => ⟨h.mono fun _ _ => trivial, h.count_eq⟩, fun h => h.1.of_count_eq h.2⟩

end

/-! ## Reading the expression -/

/-- The tokens of the expression of an element. -/
def Element.tokens : Element → List Token
  | .literal c => if c ∈ specials then [.escaped c] else [.plain c]
  | .one => [.plain '.']
  | .run => [.plain '.', .plain '*']

/-- What the expression of an element is read as. -/
def Element.item : Element → Pattern.Node × Width
  | .literal c => (.char {} c.toNat, .one)
  | .one => (.any {}, .one)
  | .run => (.times 0 none .greedy (.any {}), Width.one.times 0 none)

theorem mem_specials_of_mem_meaningful {c : Char} (h : c ∈ meaningful) : c ∈ specials := by
  have hall : meaningful.all (fun c => specials.contains c) = true := by decide
  exact List.contains_iff_mem.mp (List.all_eq_true.mp hall c h)

/-- No letter and no digit is special. -/
theorem not_isAlphanum_of_mem_specials {c : Char} (h : c ∈ specials) : c.isAlphanum = false := by
  have hall : specials.all (fun c => !c.isAlphanum) = true := by decide
  simpa using List.all_eq_true.mp hall c h

theorem tokens_flatMap_expression (es : List Element) :
    tokens (es.flatMap Element.expression) = es.flatMap Element.tokens := by
  induction es with
  | nil => rfl
  | cons e es ih =>
    rw [List.flatMap_cons, List.flatMap_cons, ← ih]
    cases e with
    | literal c =>
      rw [Element.expression, Element.tokens]
      split
      · rfl
      · next hc =>
        have hbackslash : c ≠ '\\' := fun heq => hc (heq ▸ by decide)
        rw [List.singleton_append, tokens]
        · rfl
        · exact fun heq _ => hbackslash heq
        · exact fun _ _ heq _ => hbackslash heq
    | one => rfl
    | run => rfl

theorem dangling_not_mem_tokens (es : List Element) :
    .dangling ∉ es.flatMap Element.tokens := by
  intro h
  obtain ⟨e, _, he⟩ := List.mem_flatMap.mp h
  cases e with
  | literal c =>
    rw [Element.tokens] at he
    split at he <;> simp at he
  | one => simp [Element.tokens] at he
  | run => simp [Element.tokens] at he

/-- No element begins with a bare special character, the dot apart. -/
theorem head?_tokens_ne {d : Char} (hd : d ∈ specials) (hdot : d ≠ '.') :
    ∀ es : List Element, (es.flatMap Element.tokens).head? ≠ some (.plain d)
  | [] => nofun
  | .literal c :: es => by
    rw [List.flatMap_cons, Element.tokens]
    split
    · nofun
    · next hc =>
      intro heq
      cases heq
      exact hc hd
  | .one :: es => fun heq => by
    cases heq
    exact hdot rfl
  | .run :: es => fun heq => by
    cases heq
    exact hdot rfl

/-- The tokens of an element are read as its node. -/
theorem readSequence_element (e : Element) (es : List Element) (fuel : Nat) (outermost : Bool)
    (read : List (Pattern.Node × Width)) :
    readSequence (fuel + e.tokens.length) outermost {} read
        (.left (e.tokens ++ es.flatMap Element.tokens)) =
      readSequence fuel outermost {} (e.item :: read) (.left (es.flatMap Element.tokens)) := by
  have hrest := dangling_not_mem_tokens es
  cases e with
  | literal c =>
    rw [Element.tokens]
    split
    · next hc => exact readSequence_escaped hrest (not_isAlphanum_of_mem_specials hc)
    · next hc => exact readSequence_plain hrest fun hmem => hc (mem_specials_of_mem_meaningful hmem)
  | one => exact readSequence_dot hrest
  | run =>
    have hstar : .dangling ∉ Token.plain '*' :: es.flatMap Element.tokens :=
      List.not_mem_cons_of_ne_of_not_mem nofun hrest
    refine (readSequence_dot hstar).trans ?_
    exact readSequence_star hrest rfl (head?_tokens_ne (by decide) (by decide) es)
      (head?_tokens_ne (by decide) (by decide) es)

/-- The tokens of elements are read as their nodes, one after another. -/
theorem readSequence_tokens (fuel : Nat) (outermost : Bool) :
    ∀ (es : List Element) (read : List (Pattern.Node × Width)),
      readSequence (fuel + 1 + (es.flatMap Element.tokens).length) outermost {} read
          (.left (es.flatMap Element.tokens)) =
        .ok (Pattern.sequence ((es.map Element.item).reverse ++ read), .left [])
  | [], read => readSequence_nil
  | e :: es, read => by
    have hfuel : fuel + 1 + (e.tokens ++ es.flatMap Element.tokens).length =
        fuel + 1 + (es.flatMap Element.tokens).length + e.tokens.length := by
      rw [List.length_append]
      omega
    rw [List.flatMap_cons, hfuel, readSequence_element, readSequence_tokens fuel outermost es,
      List.map_cons, List.reverse_cons, List.append_assoc, List.singleton_append]

/-- **The expression of a pattern is read as the nodes of its elements.** -/
theorem ofText_expression (pattern : String) : ofText {} (expression pattern) =
    .ok (.seq ((elements pattern.toList).map fun e => e.item.1)) := by
  have htokens : tokens (expression pattern).toList =
      (elements pattern.toList).flatMap Element.tokens := by
    rw [expression, String.toList_ofList, tokens_flatMap_expression]
  have hread : ∀ fuel, readSequence (fuel + 1 + (tokens (expression pattern).toList).length) true {}
      [] (.left (tokens (expression pattern).toList)) =
        .ok (Pattern.sequence ((elements pattern.toList).map Element.item).reverse, .left []) := by
    intro fuel
    rw [htokens, readSequence_tokens, List.append_nil]
  rw [ofText_eq_of_readSequence (htokens ▸ dangling_not_mem_tokens _) hread,
    Pattern.sequence, List.reverse_reverse, List.map_map]
  rfl

/-! ## Matching -/

/-- An element takes what it spells. -/
theorem Element.takes_item (e : Element) : Takes e.item.1 (e.Spells (· ≠ '\n')) := by
  cases e with
  | literal c =>
    refine (takesOne_char c).congr fun part => ?_
    simp [Spells]
  | one => exact takesOne_any
  | run => exact takesOne_any.times

/-- **Elements in a row take what they spell.** -/
theorem takes_items : ∀ es : List Element,
    Takes (.seq (es.map fun e => e.item.1)) (Spell (· ≠ '\n') es)
  | [] => takes_seq_nil
  | e :: es => e.takes_item.seq_cons (takes_items es)

/-- **A text is like a pattern that describes it and has as many line ends.** -/
theorem isLike_iff (s pattern : String) : isLike s pattern = true ↔
    Describes (fun _ => True) pattern.toList s.toList ∧
      s.toList.count '\n' = pattern.toList.count '\n' := by
  rw [isLike, Format.ofText, ofText_expression]
  calc isWhole (.seq ((elements pattern.toList).map fun e => e.item.1)) s = true
    _ ↔ Spell (· ≠ '\n') (elements pattern.toList) s.toList := (takes_items _).isWhole_iff s
    _ ↔ Describes (· ≠ '\n') pattern.toList s.toList := spell_elements_iff
    _ ↔ _ := describes_iff_count

end Like

/-! ## The operator -/

namespace Registry

theorem find?_like (now : DateTime) : (builtIn now).find? (.str "like") =
    some ⟨"like", .string, [.string], .ofRelation (Value.texts Like.isLike)⟩ :=
  find?_builtIn (o := ⟨"like", .string, [.string], .ofRelation (Value.texts Like.isLike)⟩)
    (by simp [Operator.builtIns, Operator.wordings])

/-- **An operator for patterns with wildcards.**  On two texts `like` always decides: the second one
describes the first and has as many line ends. -/
theorem like_builtIn (now : DateTime) : ∃ o, (builtIn now).find? (.str "like") = some o ∧
    ∀ s pattern : String, ∃ passed, o.test (.str s) (.str pattern) = .ok passed ∧
      (passed = true ↔ Like.Describes (fun _ => True) pattern.toList s.toList ∧
        s.toList.count '\n' = pattern.toList.count '\n') :=
  ⟨_, find?_like now, fun s pattern => ⟨Like.isLike s pattern, rfl, Like.isLike_iff s pattern⟩⟩

/-- No wildcard stands for a line end. -/
theorem like_builtIn_misses_line_end :
    Like.Describes (fun _ => True) "a%c".toList "a\nc".toList ∧
      ∃ o, (builtIn default).find? (.str "like") = some o ∧
        o.test (.str "a\nc") (.str "a%c") = .ok false := by
  have hlike : Like.isLike "a\nc" "a%c" = false := by decide +kernel
  have htest : Test.ofRelation (Value.texts Like.isLike) (.str "a\nc") (.str "a%c") = .ok false := by
    simp only [Test.ofRelation, Value.texts, hlike]
  refine ⟨?_, _, find?_like default, htest⟩
  have hrest : Like.Describes (fun _ => True) ['c'] ['c'] :=
    .itself (by decide) (by decide) (by decide) .nothing
  have hrun : Like.Describes (fun _ => True) ['%', 'c'] (['\n'] ++ ['c']) :=
    .run (fun _ _ => trivial) hrest
  exact .itself (by decide) (by decide) (by decide) hrun

end Registry

end Verdict
