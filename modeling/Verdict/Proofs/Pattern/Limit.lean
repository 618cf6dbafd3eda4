import Verdict.Pattern.Literal
import Verdict.Proofs.Limit
import Verdict.Proofs.Pattern.Reads

/-!
# Proofs/Pattern/Limit — what stops the reading of a pattern

    \x7b4294967296\x7d       a count of rounds is too large, or has too many digits
    \U80000000         a code point does not fit
    (?a) … (?u)        ASCII and Unicode classes are asked for

Most readers may stand anywhere in a pattern, for they throw no fault and ask for no mode.  The few
others are told what comes right before them, so that a fault shows what stands in the pattern
(`Pattern.exceeds_of_compile?`).
-/

namespace Verdict.Pattern

section

variable {ts : List Token}

/-! ## Characters and code points -/

theorem keeps_takeIf (c : Char) : Keeps ts (takeIf c) :=
  (Reads.takeIf c).mono (fun _ h => h) fun _ _ => Within.forget

/-- A token and nothing of what was before it. -/
theorem reads_takeToken : Reads ts (Within ts []) takeToken fun t => Within ts t.toList :=
  Reads.takeToken.mono (fun _ h => h) fun _ _ => Within.last

theorem keeps_takeUntil (closing : Char) : Keeps ts (takeUntil closing) := by
  have hgo : ∀ (fuel : Nat) (read : List Char), Keeps ts (takeUntil.go closing fuel read) := by
    intro fuel
    induction fuel with
    | zero => exact fun _ => .refuse
    | succ fuel ih =>
      intro read
      refine .bind .takeToken fun t => ?_
      split
      · exact .refuse
      · split
        · split
          · exact .refuse
          · exact .done
        · exact .of_keeps (ih _)
  exact .bind .get fun p => .and fun _ => hgo _ _

/-- Hexadecimal digits are read as their number. -/
theorem reads_readHex {before : List Token} (count : Nat) :
    Reads ts (Within ts before) (readHex count) fun code p => ∃ digits,
      digits.length = count ∧ (∀ c ∈ digits, isHex c = true) ∧ code = numberOf 16 digits ∧
        Within ts (before ++ digits.map .plain) p := by
  refine .bind (.takeWhile isHex) fun digits => .and fun hhex => ?_
  split
  · next hlength => exact .pure fun p hp => ⟨digits, hlength, hhex, rfl, hp⟩
  · exact .refuse

theorem keeps_readHex (count : Nat) : Keeps ts (readHex count) :=
  (reads_readHex count).mono (fun _ h => h) fun _ _ ⟨_, _, _, _, hp⟩ => hp.forget

theorem reads_readLongCode :
    Reads ts (Within ts [.escaped 'U']) readLongCode fun _ => Within ts [] := by
  refine .bind (reads_readHex 8) fun code => ?_
  split
  · next hcode =>
    refine .fault fun p ⟨digits, hlength, hhex, heq, hp⟩ => ?_
    have hchars := hp.chars
    rw [charsOf_append, charsOf_plain] at hchars
    exact .code hchars hlength hhex (heq ▸ hcode)
  · split
    · exact .refuse
    · exact .pure fun p ⟨_, _, _, _, hp⟩ => hp.forget

theorem keeps_readNamed : Keeps ts readNamed := by
  refine .bind (keeps_takeIf _) fun opened => ?_
  dsimp only
  split
  · exact .refuse_bind
  · refine .keeps_bind (keeps_takeUntil _) fun name => ?_
    split
    · exact .done
    · exact .refuse

theorem reads_octalCode (P : Progress → Prop) (digits : List Char) :
    Reads ts P (octalCode digits) fun _ => P := by
  unfold octalCode
  dsimp only
  split
  · exact .refuse
  · exact .pure fun _ h => h

/-- The code point after a backslash and a character. -/
theorem reads_readEscapedCode (c : Char) :
    Reads ts (Within ts [.escaped c]) (readEscapedCode c) fun _ => Within ts [] := by
  unfold readEscapedCode
  split
  · exact .done
  · split
    · exact .of_keeps (keeps_readHex 2)
    · split
      · exact .of_keeps (keeps_readHex 4)
      · split
        · next hU =>
          subst hU
          exact reads_readLongCode
        · split
          · exact .of_keeps keeps_readNamed
          · split
            · exact .refuse
            · exact .done

/-! ## Sets -/

theorem reads_readSetItem (token : Token) :
    Reads ts (Within ts [token]) (readSetItem token) fun _ => Within ts [] := by
  unfold readSetItem
  split
  · exact .done
  · exact .refuse
  · next c =>
    split
    · exact .done
    · split
      · exact .done
      · split
        · refine .bind (.takeWhile isOctal) fun digits => .and fun _ => ?_
          exact .bind (reads_octalCode _ _) fun _ => .done
        · exact .bind (reads_readEscapedCode c) fun _ => .done

theorem keeps_readSetItems : ∀ (fuel : Nat) (read : List SetItem), Keeps ts (readSetItems fuel read)
  | 0, _ => .refuse
  | fuel + 1, read => by
    rw [readSetItems]
    refine .bind reads_takeToken fun t => ?_
    split
    · exact .refuse
    · next token =>
      split
      · exact .done
      · refine .bind (reads_readSetItem token) fun item => .bind (keeps_takeIf '-') fun _ => ?_
        split
        · refine .bind reads_takeToken fun t => ?_
          split
          · exact .refuse
          · exact .done
          · next token _ =>
            refine .bind (reads_readSetItem token) fun item' => ?_
            split
            · split
              · exact .refuse
              · exact keeps_readSetItems fuel _
            · exact .refuse
        · exact keeps_readSetItems fuel _

theorem keeps_readSet (mode : Mode) : Keeps ts (readSet mode) :=
  .bind (keeps_takeIf _) fun _ => .bind .get fun _ => .and fun _ =>
    .bind (keeps_readSetItems _ _) fun _ => .done

/-! ## Groups by number and name -/

/-- A change of what is known of groups. -/
theorem keeps_modify {g : Progress → Progress} (hrest : ∀ p, (g p).rest = p.rest)
    (hmode : ∀ p, (g p).mode = p.mode) (hunicode : ∀ p, (g p).unicode = p.unicode) :
    Keeps ts (modify g) :=
  .modify fun p hp => hp.congr (hrest p) (hmode p) (hunicode p)

section

variable {P : Progress → Prop}

theorem reads_closedWidth? (index : Nat) : Reads ts P (closedWidth? index) fun _ => P :=
  .bind .get fun _ => .and fun _ => .pure fun _ h => h

theorem reads_checkBehind (index : Nat) : Reads ts P (checkBehind index) fun _ => P := by
  refine .bind .get fun p => .and fun _ => ?_
  split
  · refine .bind (reads_closedWidth? index) fun width => ?_
    split
    · exact .refuse
    · exact .pure fun _ h => h
  · exact .pure fun _ h => h

theorem reads_readReference (mode : Mode) (index : Nat) :
    Reads ts P (readReference mode index) fun _ => P := by
  refine .bind (reads_closedWidth? index) fun width => ?_
  split
  · exact .refuse
  · exact .bind (reads_checkBehind index) fun _ => .pure fun _ h => h

end

theorem keeps_readNumbered (mode : Mode) (c : Char) : Keeps ts (readNumbered mode c) := by
  have hreference : ∀ {P : Progress → Prop} {digits : List Char}, (∀ p, P p → Within ts [] p) →
      Reads ts P (readReference mode (numberOf 10 digits)) fun _ => Within ts [] := fun hP =>
    (reads_readReference mode _).mono hP fun _ _ h => h
  unfold readNumbered
  dsimp only
  refine .bind .peek fun t => ?_
  split
  · next d =>
    split
    · refine .bind .advance fun _ => ?_
      split
      · refine .bind .peek fun t => ?_
        split
        · next e =>
          split
          · exact .bind .advance fun _ => .bind (reads_octalCode _ _) fun _ => .done
          · exact hreference fun _ h => h.1.forget
        · exact hreference fun _ h => h.1.forget
      · exact hreference fun _ => Within.forget
    · exact hreference fun _ h => h.1
  · exact hreference fun _ h => h.1

/-- What a backslash and a character stand for outside sets. -/
theorem reads_readEscape (mode : Mode) (c : Char) :
    Reads ts (Within ts [.escaped c]) (readEscape mode c) fun _ => Within ts [] := by
  unfold readEscape
  split
  · exact .done
  · split
    · exact .done
    · split
      · refine .bind (.takeWhile isOctal) fun digits => .and fun _ => .done
      · split
        · exact .of_keeps (keeps_readNumbered mode c)
        · exact .bind (reads_readEscapedCode c) fun _ => .done

theorem keeps_openGroup (name : Option String) : Keeps ts (openGroup name) := by
  refine .bind .get fun p => .and fun hp => ?_
  dsimp only
  split
  · exact .bind (.set (hp.congr rfl rfl rfl)) fun _ => .done
  · split
    · exact .refuse_bind
    · exact .bind (.set (hp.congr rfl rfl rfl)) fun _ => .done

theorem keeps_closeGroup (index : Nat) (width : Width) : Keeps ts (closeGroup index width) :=
  keeps_modify (fun _ => rfl) (fun _ => rfl) fun _ => rfl

theorem keeps_readName (closing : Char) : Keeps ts (readName closing) := by
  refine .bind (keeps_takeUntil closing) fun name => ?_
  split
  · exact .done
  · exact .refuse

theorem keeps_readCondition : Keeps ts readCondition := by
  have hcheck : ∀ index, Keeps ts (do checkBehind index; return index) := fun index =>
    .bind (reads_checkBehind index) fun _ => .done
  refine .bind (keeps_takeUntil _) fun text => ?_
  dsimp only
  split
  · refine .bind .get fun p => .and fun hp => ?_
    split
    · exact .bind .done hcheck
    · exact .refuse_bind
  · split
    · split
      · exact .refuse_bind
      · exact .bind (keeps_modify (fun _ => rfl) (fun _ => rfl) fun _ => rfl) fun _ =>
          .bind .done hcheck
    · exact .refuse_bind

/-! ## Modes -/

/-- An opening parenthesis, a question mark and some characters. -/
def opened (cs : List Char) : List Token := ('(' :: '?' :: cs).map .plain

theorem opened_append (cs : List Char) (c : Char) :
    opened cs ++ [.plain c] = opened (cs ++ [c]) := by
  simp [opened]

theorem reads_readOn : ∀ (fuel : Nat) {on : List Flag} {c : Char} {letters : List Char},
    letters.map flag? = on.map some →
      Reads ts (Within ts (opened (letters ++ [c]))) (readOn fuel on c) fun r p =>
        ∃ letters', letters'.map flag? = r.1.map some ∧ Within ts (opened (letters' ++ [r.2])) p
  | 0, _, _, _, _ => .refuse
  | fuel + 1, on, c, letters, h => by
    rw [readOn]
    split
    · exact .refuse
    · next f hf =>
      have hletters : (letters ++ [c]).map flag? = (on ++ [f]).map some := by simp [h, hf]
      dsimp only
      split
      · exact .refuse_bind
      · refine .bind .takeToken fun t => ?_
        split
        · next c' =>
          rw [Option.toList_some, opened_append]
          split
          · exact .pure fun p hp => ⟨letters ++ [c], hletters, hp⟩
          · exact reads_readOn fuel hletters
        · exact .refuse

theorem keeps_readOff : ∀ (fuel : Nat) (off : List Flag) (c : Char), Keeps ts (readOff fuel off c)
  | 0, _, _ => .refuse
  | fuel + 1, off, c => by
    rw [readOff]
    split
    · exact .refuse
    · dsimp only
      split
      · exact .refuse_bind
      · refine .bind reads_takeToken fun t => ?_
        split
        · exact .done
        · exact .of_keeps (keeps_readOff fuel _ _)
        · exact .refuse

/-- What is known of a change of modes once it has been read. -/
def ModeChange.Within (ts : List Token) (p : Progress) : ModeChange → Prop
  | .whole on => ∃ letters, letters.map flag? = on.map some ∧
      Pattern.Within ts (opened (letters ++ [')'])) p
  | .inside .. => Pattern.Within ts [] p

theorem reads_readModes (first : Char) : Reads ts (Within ts (opened [first])) (readModes first)
    fun change p => change.Within ts p := by
  have hon : ∀ fuel, Reads ts (Within ts (opened [first]))
      (if first = '-' then pure ([], '-') else readOn fuel [] first) fun r p =>
        ∃ letters, letters.map flag? = r.1.map some ∧ Within ts (opened (letters ++ [r.2])) p := by
    intro fuel
    split
    · next hfirst =>
      subst hfirst
      exact .pure fun p hp => ⟨[], rfl, hp⟩
    · exact @reads_readOn ts fuel [] first [] rfl
  refine .bind .get fun p => .and fun _ => ?_
  dsimp only
  refine .ite_bind (hon _) fun (on, ending) => ?_
  dsimp only
  split
  · next hending =>
    subst hending
    exact .pure fun p hp => hp
  · refine Reads.mono (P := Within ts []) ?_ (fun p ⟨_, _, hp⟩ => hp.forget) fun _ _ h => h
    split
    · exact .refuse_bind
    · split
      · refine .bind reads_takeToken fun t => ?_
        split
        · refine .keeps_bind (keeps_readOff _ _ _) fun off => ?_
          split
          · exact .refuse_bind
          · exact .pure fun _ h => h
        · exact .refuse_bind
      · refine .bind .done fun off => ?_
        split
        · exact .refuse_bind
        · exact .pure fun _ h => h

/-- ASCII classes hold for the whole pattern only where they held before or are asked for. -/
theorem ascii_foldl : ∀ (on : List Flag) (mode : Mode),
    (on.foldl (fun mode f => if f = .unicode then mode else mode.turn true f) mode).ascii = true →
      mode.ascii = true ∨ Flag.ascii ∈ on
  | [], _, h => .inl h
  | f :: on, mode, h => by
    rcases ascii_foldl on _ h with hmode | hmem
    · cases f <;> first | exact .inl hmode | exact .inr (List.mem_cons_self ..)
    · exact .inr (List.mem_cons_of_mem _ hmem)

/-- A mode for the whole pattern is asked for by its letter. -/
theorem asksFor_of_mem {on : List Flag} {letters : List Char} {p : Progress} {f : Flag} {c : Char}
    (hletters : letters.map flag? = on.map some) (hp : Within ts (opened (letters ++ [')'])) p)
    (hc : ∀ d, flag? d = some f → d = c) (hf : f ∈ on) : AsksFor (charsOf ts) c := by
  have hsome : some f ∈ letters.map flag? := hletters ▸ List.mem_map_of_mem hf
  obtain ⟨d, hd, hflag⟩ := List.mem_map.mp hsome
  have hchars := hp.chars
  rw [opened, charsOf_plain] at hchars
  refine ⟨letters, hc d hflag ▸ hd, fun e he => ?_, hchars⟩
  have he' : flag? e ∈ on.map some := hletters ▸ List.mem_map_of_mem he
  obtain ⟨g, _, hg⟩ := List.mem_map.mp he'
  rw [← hg]
  rfl

theorem flag?_eq_ascii_or_unicode (d : Char) :
    (flag? d = some .ascii → d = 'a') ∧ (flag? d = some .unicode → d = 'u') := by
  unfold flag?
  split <;> simp_all

theorem reads_applyWhole (on : List Flag) :
    Reads ts (fun p => ModeChange.Within ts p (.whole on)) (applyWhole on) fun _ => Within ts [] := by
  refine .modify fun p ⟨letters, hletters, hp⟩ => ⟨hp.forget.rest, fun h => ?_, fun h => ?_⟩
  · rcases ascii_foldl on p.mode h with hmode | hmem
    · exact hp.ascii hmode
    · exact asksFor_of_mem hletters hp (fun d => (flag?_eq_ascii_or_unicode d).1) hmem
  · rcases Bool.or_eq_true_iff.mp h with hunicode | hmem
    · exact hp.unicode hunicode
    · exact asksFor_of_mem hletters hp (fun d => (flag?_eq_ascii_or_unicode d).2)
        (List.contains_iff_mem.mp hmem)

/-! ## Repetition -/

/-- Digits that stand between braces are read as a count, unless they exceed a limit. -/
theorem reads_readCount {P : Progress → Prop} {digits : List Char}
    (hcount : HoldsCount (charsOf ts) digits) (hdigits : ∀ c ∈ digits, c.isDigit = true) :
    Reads ts P (readCount digits) fun _ => P := by
  unfold readCount
  dsimp only
  split
  · next hlong => exact .fault_bind fun _ _ => .numeral hcount hdigits hlong
  · split
    · next hlarge => exact .fault fun _ _ => .count hcount hdigits hlarge
    · exact .pure fun _ h => h

/-- An opening brace, digits, and perhaps a comma and more digits; the digits that were read last are
the upper bound. -/
def InBounds (ts : List Token) (low high : List Char) (p : Progress) : Prop :=
  ∃ cs, Within ts (('\x7b' :: low ++ cs).map .plain) p ∧ (cs = [] ∧ high = low ∨ cs = ',' :: high)

/-- Both counts stand between braces once the closing one has been read. -/
theorem holdsCount_of_chars {cs low high more : List Char}
    (hmore : more = [] ∧ high = low ∨ more = ',' :: high)
    (h : '\x7b' :: low ++ more ++ ['\x7d'] <:+: cs) : HoldsCount cs low ∧ HoldsCount cs high := by
  rcases hmore with ⟨rfl, rfl⟩ | rfl
  · rw [List.append_nil] at h
    exact ⟨.alone h, .alone h⟩
  · exact ⟨.low h, .high h⟩

/-- A lower bound, and the upper one where there is one. -/
theorem reads_readBounds :
    Reads ts (Within ts [.plain '\x7b']) readBounds fun _ => Within ts [] := by
  refine .bind .get fun p => .and fun hp => .bind .peek fun t => ?_
  split
  · exact .pure fun _ h => h.1.forget
  · dsimp only
    refine .bind (Reads.mono (.takeWhile Char.isDigit) (fun _ h => h.1) fun _ _ h => h)
      fun low => .and fun hlow => .bind (.takeIf ',') fun comma => ?_
    have hupper : Reads ts
        (Within ts (if comma then [.plain '\x7b'] ++ low.map .plain ++ [.plain ',']
          else [.plain '\x7b'] ++ low.map .plain))
        (if comma then takeWhile Char.isDigit p.rest.length else pure low)
        fun high q => InBounds ts low high q ∧ ∀ c ∈ high, c.isDigit = true := by
      cases comma with
      | true =>
        refine (Reads.takeWhile Char.isDigit).mono (fun _ h => h) fun high q hq => ⟨?_, hq.2⟩
        exact ⟨',' :: high, by simpa using hq.1, .inr rfl⟩
      | false => exact .pure fun q hq => ⟨⟨[], by simpa using hq, .inl ⟨rfl, rfl⟩⟩, hlow⟩
    refine .ite_bind hupper fun high => .and fun hhigh => .of_exists fun more => .and fun hmore => ?_
    refine .bind (.takeIf _) fun closed => ?_
    cases closed with
    | false => exact .bind (.set hp.forget) fun _ => .done
    | true =>
      -- what has been read shows both counts, so the place in the pattern can be forgotten
      refine Reads.mono (P := fun q => Within ts [] q ∧
        HoldsCount (charsOf ts) low ∧ HoldsCount (charsOf ts) high) (.and fun hcounts => ?_)
        (fun q hq => ⟨hq.forget, ?_⟩) fun _ _ h => h
      · have hlower : Keeps ts (if low.isEmpty then pure 0 else readCount low) := by
          split
          · exact .done
          · exact reads_readCount hcounts.1 hlow
        refine .ite_bind hlower fun fewest => ?_
        split
        · exact .done
        · refine .bind (reads_readCount hcounts.2 hhigh) fun most => ?_
          split
          · exact .refuse_bind
          · exact .done
      · have hchars := hq.chars
        rw [if_pos rfl, charsOf_append, charsOf_plain] at hchars
        exact holdsCount_of_chars hmore hchars

theorem keeps_readGreed : Keeps ts readGreed := by
  refine .bind (keeps_takeIf _) fun _ => ?_
  split
  · exact .done
  · refine .bind (keeps_takeIf _) fun _ => ?_
    split <;> exact .done

theorem keeps_repeatLast (fewest : Nat) (most : Option Nat) (read : List (Node × Width)) :
    Keeps ts (repeatLast fewest most read) := by
  unfold repeatLast
  split
  · exact .refuse
  · dsimp only
    split
    · exact .refuse_bind
    · exact .bind keeps_readGreed fun _ =>
        .bind (keeps_modify (fun _ => rfl) (fun _ => rfl) fun _ => rfl) fun _ => .done

theorem keeps_skipLine : ∀ fuel : Nat, Keeps ts (skipLine fuel)
  | 0 => .done
  | fuel + 1 => by
    rw [skipLine]
    refine .bind reads_takeToken fun t => ?_
    split
    · exact .done
    · exact .done
    · exact .of_keeps (keeps_skipLine fuel)

theorem keeps_skipComment : ∀ fuel : Nat, Keeps ts (skipComment fuel)
  | 0 => .refuse
  | fuel + 1 => by
    rw [skipComment]
    refine .bind reads_takeToken fun t => ?_
    split
    · exact .refuse
    · exact .done
    · exact .of_keeps (keeps_skipComment fuel)

theorem keeps_closeParen : Keeps ts closeParen := by
  refine .bind (keeps_takeIf _) fun _ => ?_
  split
  · exact .refuse
  · exact .done

theorem keeps_checkWidth (width : Width) : Keeps ts (checkWidth width) :=
  keeps_modify (fun _ => rfl) (fun _ => rfl) fun _ => rfl

/-! ## Expressions -/

mutual

theorem keeps_readAlternatives : ∀ (fuel : Nat) (outermost : Bool) (mode : Mode),
    Keeps ts (readAlternatives fuel outermost mode)
  | 0, _, _ => .refuse
  | fuel + 1, outermost, mode => by
    rw [readAlternatives]
    refine .bind (keeps_readSequence fuel outermost mode []) fun first => .bind .peek fun t => ?_
    refine Reads.mono (P := Within ts []) ?_ (fun _ h => h.1) fun _ _ h => h
    split
    · exact .bind (keeps_readOthers fuel outermost mode) fun _ => .done
    · exact .done

theorem keeps_readOthers : ∀ (fuel : Nat) (outermost : Bool) (mode : Mode),
    Keeps ts (readOthers fuel outermost mode)
  | 0, _, _ => .refuse
  | fuel + 1, outermost, mode => by
    rw [readOthers]
    refine .bind (keeps_takeIf _) fun _ => ?_
    split
    · exact .bind .get fun _ => .and fun _ => .bind (keeps_readSequence fuel false _ []) fun _ =>
        .bind (keeps_readOthers fuel outermost _) fun _ => .done
    · exact .done

/-- **Whatever token comes next, the reader goes on within the pattern.** -/
theorem keeps_readSequence : ∀ (fuel : Nat) (outermost : Bool) (mode : Mode)
    (read : List (Node × Width)), Keeps ts (readSequence fuel outermost mode read)
  | 0, _, _, _ => .refuse
  | fuel + 1, outermost, mode, read => by
    have hrest : ∀ {before : List Token} (read : List (Node × Width)), Reads ts (Within ts before)
        (readSequence fuel outermost mode read) fun _ => Within ts [] :=
      fun read => .of_keeps (keeps_readSequence fuel outermost mode read)
    -- Each branch reads on with less text, behind one step that has a lemma of its own.
    rw [readSequence]
    refine .bind .peek fun t => ?_
    split
    · exact .pure fun _ h => h.1
    · exact .pure fun _ h => h.1
    · exact .pure fun _ h => h.1
    · exact .pure fun _ h => h.1
    · exact .bind .advance fun _ => .bind (reads_readEscape mode _) fun _ => hrest _
    · refine .bind .advance fun _ => ?_
      split
      · exact hrest _
      · split
        · exact .bind .get fun _ => .and fun _ => .keeps_bind (keeps_skipLine _) fun _ => hrest _
        · split
          · exact .keeps_bind (keeps_readSet mode) fun _ => hrest _
          · exact hrest _
          · exact hrest _
          · exact hrest _
          · exact .keeps_bind (keeps_repeatLast _ _ _) fun _ => hrest _
          · exact .keeps_bind (keeps_repeatLast _ _ _) fun _ => hrest _
          · exact .keeps_bind (keeps_repeatLast _ _ _) fun _ => hrest _
          · refine .bind reads_readBounds fun bounds => ?_
            split
            · exact .keeps_bind (keeps_repeatLast _ _ _) fun _ => hrest _
            · exact hrest _
          · refine .bind (.takeIf '?') fun extended => ?_
            cases extended with
            | true => exact reads_readExtension fuel outermost mode read
            | false => exact .keeps_bind (keeps_readCapture fuel mode none) fun _ => hrest _
          · exact hrest _

/-- A group that captures. -/
theorem keeps_readCapture : ∀ (fuel : Nat) (mode : Mode) (name : Option String),
    Keeps ts (readCapture fuel mode name)
  | 0, _, _ => .refuse
  | fuel + 1, mode, name => by
    rw [readCapture]
    exact .bind (keeps_openGroup name) fun _ =>
      .bind (keeps_readAlternatives fuel false mode) fun _ =>
        .bind keeps_closeParen fun _ => .bind (keeps_closeGroup _ _) fun _ => .done

theorem keeps_readLook : ∀ (fuel : Nat) (mode : Mode) (behind negated : Bool),
    Keeps ts (readLook fuel mode behind negated)
  | 0, _, _, _ => .refuse
  | fuel + 1, mode, behind, negated => by
    rw [readLook]
    have hbody : ∀ before : Option Nat, Keeps ts (do
        let (body, width) ← readAlternatives fuel false mode
        if behind then
          modify fun p => { p with before }
          checkWidth width
        closeParen
        return ((.look (if behind then some width.least else none) negated body, .zero) :
          Node × Width)) := by
      intro before
      have hend : ∀ {x : Node × Width}, Keeps ts (do closeParen; return x) :=
        .bind keeps_closeParen fun _ => .done
      refine .bind (keeps_readAlternatives fuel false mode) fun _ => ?_
      dsimp only
      split
      · exact .bind (keeps_modify (fun _ => rfl) (fun _ => rfl) fun _ => rfl) fun _ =>
          .bind (keeps_checkWidth _) fun _ => hend
      · exact hend
    refine .bind .get fun p => .and fun _ => ?_
    dsimp only
    split
    · exact .bind (keeps_modify (fun _ => rfl) (fun _ => rfl) fun _ => rfl) fun _ => hbody _
    · exact hbody _

theorem keeps_readConditional : ∀ (fuel : Nat) (mode : Mode), Keeps ts (readConditional fuel mode)
  | 0, _ => .refuse
  | fuel + 1, mode => by
    rw [readConditional]
    refine .bind keeps_readCondition fun _ => .bind (keeps_readSequence fuel false mode []) fun _ =>
      .bind (keeps_takeIf _) fun _ => ?_
    split
    · exact .bind (keeps_readSequence fuel false mode []) fun _ =>
        .bind keeps_closeParen fun _ => .done
    · exact .bind keeps_closeParen fun _ => .done

/-- What follows an opening parenthesis and a question mark. -/
theorem reads_readExtension : ∀ (fuel : Nat) (outermost : Bool) (mode : Mode)
    (read : List (Node × Width)), Reads ts (Within ts (opened []))
      (readExtension fuel outermost mode read) fun _ => Within ts []
  | 0, _, _, _ => .refuse
  | fuel + 1, outermost, mode, read => by
    have hrest : ∀ {before : List Token} (read : List (Node × Width)), Reads ts (Within ts before)
        (readSequence fuel outermost mode read) fun _ => Within ts [] :=
      fun read => .of_keeps (keeps_readSequence fuel outermost mode read)
    have hgroup : ∀ {before : List Token} (inner : Mode) (node : Node → Node),
        Reads ts (Within ts before) (do
          let (body, width) ← readAlternatives fuel false inner
          closeParen
          readSequence fuel outermost mode ((node body, width) :: read)) fun _ => Within ts [] :=
      fun inner node => .keeps_bind (keeps_readAlternatives fuel false inner) fun _ =>
        .bind keeps_closeParen fun _ => hrest _
    rw [readExtension]
    refine .bind .takeToken fun t => ?_
    split
    · refine .bind (Reads.of_keeps (keeps_takeIf _)) fun _ => ?_
      split
      · exact .bind (keeps_readName _) fun _ => .bind (keeps_readCapture fuel mode _) fun _ => hrest _
      · refine .bind (keeps_takeIf _) fun _ => ?_
        split
        · refine .bind (keeps_readName _) fun _ => .bind .get fun _ => .and fun _ => ?_
          split
          · exact .refuse
          · exact .bind (reads_readReference mode _) fun _ => hrest _
        · exact .refuse
    · exact hgroup mode .group
    · exact .bind .get fun _ => .and fun _ => .keeps_bind (keeps_skipComment _) fun _ => hrest _
    · exact .keeps_bind (keeps_readLook fuel mode false false) fun _ => hrest _
    · exact .keeps_bind (keeps_readLook fuel mode false true) fun _ => hrest _
    · refine .bind .takeToken fun t => ?_
      split
      · exact .keeps_bind (keeps_readLook fuel mode true false) fun _ => hrest _
      · exact .keeps_bind (keeps_readLook fuel mode true true) fun _ => hrest _
      · exact .refuse
    · exact .keeps_bind (keeps_readConditional fuel mode) fun _ => hrest _
    · exact hgroup mode .atomic
    · refine .bind (reads_readModes _) fun change => ?_
      split
      · next on =>
        split
        · exact .refuse_bind
        · exact .bind (reads_applyWhole on) fun _ => .bind .get fun _ => .and fun _ =>
            keeps_readSequence fuel outermost _ _
      · exact hgroup _ .group
    · exact .refuse

end

/-! ## Whole patterns -/

theorem reads_readWhole (mode : Mode) :
    Reads ts (Within ts []) (readWhole mode) fun _ => Within ts [] := by
  refine .bind .get fun p => .and fun _ => .bind (keeps_readAlternatives _ true mode) fun _ =>
    .bind .get fun q => .and fun hq => ?_
  dsimp only
  split
  · next hclash =>
    rw [Bool.and_eq_true] at hclash
    exact .fault_bind fun _ _ => .classes (hq.ascii hclash.1) (hq.unicode hclash.2)
  · split
    · exact .refuse_bind
    · split
      · exact .refuse_bind
      · exact .done

end

/-- **A fault in reading a pattern has a cause that stands in the pattern.** -/
theorem exceeds_of_ofText {mode : Mode} (hmode : mode.ascii = false) {s : String} {f : Fault}
    (h : ofText mode s = .error (.fault f)) : Exceeds s.toList f := by
  unfold ofText at h
  split at h
  · cases h
  · next ts _ =>
    have hstart : Within (tokens s.toList) [] { rest := tokens s.toList, mode } :=
      ⟨List.suffix_refl _, fun h => absurd h (by simp [hmode]), fun h => nomatch h⟩
    have hread := (reads_readWhole mode _ hstart).2 f (Except.map_eq_error_iff.mp h)
    rwa [charsOf_tokens] at hread

theorem Exceeds.mono {cs ds : List Char} {f : Fault} (h : Exceeds cs f) (hcs : cs <:+: ds) :
    Exceeds ds f := by
  have hcount : ∀ {digits}, HoldsCount cs digits → HoldsCount ds digits := by
    rintro digits (h | h | h)
    · exact .alone (h.trans hcs)
    · exact .low (h.trans hcs)
    · exact .high (h.trans hcs)
  have hasks : ∀ {c}, AsksFor cs c → AsksFor ds c := fun ⟨letters, hmem, hflags, h⟩ =>
    ⟨letters, hmem, hflags, h.trans hcs⟩
  cases h with
  | numeral h hdigits hlong => exact .numeral (hcount h) hdigits hlong
  | count h hdigits hlarge => exact .count (hcount h) hdigits hlarge
  | code h hlength hhex hlarge => exact .code (h.trans hcs) hlength hhex hlarge
  | classes ha hu => exact .classes (hasks ha) (hasks hu)

/-- The body of a pattern between slashes stands in it. -/
theorem infix_of_splitLiteral? {cs body letters : List Char}
    (h : splitLiteral? cs = some (body, letters)) : body <:+: cs := by
  unfold splitLiteral? at h
  dsimp only at h
  have hreversed : ∀ {ds : List Char}, ds <:+ cs.reverse → (ds.reverse.drop 1) <:+: cs := by
    intro ds hds
    refine (List.drop_suffix 1 _).isInfix.trans (List.IsPrefix.isInfix ?_)
    rw [← List.reverse_suffix, List.reverse_reverse]
    exact hds
  split at h
  · next heq =>
    split at h
    · cases h
    · cases h
      refine hreversed ((List.suffix_cons ..).trans (heq ▸ (List.dropWhile_suffix _).trans ?_))
      split
      · next heq => exact heq ▸ List.suffix_cons ..
      · exact List.suffix_refl _
  · cases h

theorem ascii_ofLetter (letters : List Char) (mode : Mode) :
    (letters.foldl Mode.ofLetter mode).ascii = mode.ascii := by
  induction letters generalizing mode with
  | nil => rfl
  | cons c letters ih =>
    rw [List.foldl_cons, ih]
    unfold Mode.ofLetter
    repeat' split
    all_goals rfl

/-- **A fault in reading a pattern as a rule writes it has a cause that stands in it.** -/
theorem exceeds_of_compile? {s : String} {f : Fault} (h : compile? s = .error f) :
    Exceeds s.toList f := by
  unfold compile? at h
  split at h
  next body mode heq =>
  have hread : ofText mode body = .error (.fault f) := by
    split at h
    · cases h
    · split at h
      · cases h
      · cases h
      · next hread =>
        cases h
        exact hread
  split at heq
  · next inner letters hliteral =>
    cases heq
    refine (exceeds_of_ofText (ascii_ofLetter letters _) hread).mono ?_
    rw [String.toList_ofList]
    exact infix_of_splitLiteral? hliteral
  · cases heq
    exact exceeds_of_ofText rfl hread

end Verdict.Pattern
