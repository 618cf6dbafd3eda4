import Verdict.Proofs.Limit
import Verdict.Proofs.Path.Marks

/-!
# Proofs/Path/Compose — paths one after another

    text of a path ++ text of a path      root ──first──▸ x, y, … ──second──▸ what is at the end
          │ ofChars                              all that the second leads to from x, then from y, …
          ▾
    segments ++ segments

A text is read from the left, and reading one segment does not depend on the text behind it, as long
as a point or a bracket comes next (`Segment.read?_append`).  So the segments of two texts are read
of their concatenation (`Segment.ofChars_append`).  Segments lead one after another to what the
later ones lead to from each value that the earlier ones lead to; without a wildcard that is one
value at most: `Path.resolve_composes`.
-/

namespace Verdict

namespace Segment

/-! ## Reading with more text behind -/

/-- A text that can come next after a segment: nothing, or one that begins with a point or a
bracket. -/
def IsSequel (cs : List Char) : Prop := ∀ c ∈ cs.head?, c = '.' ∨ c = '['

theorem isSequel_nil : IsSequel [] := fun _ h => by cases h

theorem isSequel_cons {c : Char} {cs : List Char} (h : c = '.' ∨ c = '[') : IsSequel (c :: cs) := by
  intro d hd
  obtain rfl := Option.some.inj hd
  exact h

theorem isSequel_withPoint (cs : List Char) : IsSequel (withPoint cs) := by
  cases cs with
  | nil => exact isSequel_nil
  | cons c cs =>
    rw [withPoint]
    split
    · next h => exact isSequel_cons (by simpa using h)
    · exact isSequel_cons (.inl rfl)

theorem withPoint_of_isSequel {cs : List Char} (h : IsSequel cs) : withPoint cs = cs := by
  cases cs with
  | nil => rfl
  | cons c cs => rw [withPoint, if_pos (by simpa using h c rfl)]

variable {cs rest tail : List Char} {p : Char → Bool}

/-- What ends at a point or a bracket is not prolonged by a sequel. -/
theorem dropWhile_append_sequel (htail : IsSequel tail) (hpoint : p '.' = false)
    (hbracket : p '[' = false) (cs : List Char) :
    (cs ++ tail).dropWhile p = cs.dropWhile p ++ tail := by
  rw [List.dropWhile_append]
  split
  · next h =>
    rw [List.isEmpty_iff.mp h, List.nil_append]
    cases tail with
    | nil => rfl
    | cons c tail => rcases htail c rfl with rfl | rfl <;> simp [hpoint, hbracket]
  · rfl

theorem takeWhile_append_sequel (htail : IsSequel tail) (hpoint : p '.' = false)
    (hbracket : p '[' = false) (cs : List Char) : (cs ++ tail).takeWhile p = cs.takeWhile p := by
  have hsplit : (cs ++ tail).takeWhile p ++ (cs.dropWhile p ++ tail) =
      cs.takeWhile p ++ (cs.dropWhile p ++ tail) := by
    rw [← dropWhile_append_sequel htail hpoint hbracket, List.takeWhile_append_dropWhile,
      dropWhile_append_sequel htail hpoint hbracket, ← List.append_assoc,
      List.takeWhile_append_dropWhile]
  exact List.append_cancel_right hsplit

theorem closeBracket?_append (htail : IsSequel tail) (cs : List Char) :
    closeBracket? (cs ++ tail) = (closeBracket? cs).map (· ++ tail) := by
  rw [closeBracket?, closeBracket?, dropWhile_append_sequel htail (by decide) (by decide)]
  cases cs.dropWhile isBlank with
  | nil =>
    cases tail with
    | nil => rfl
    | cons c tail => rcases htail c rfl with rfl | rfl <;> rfl
  | cons c rest =>
    by_cases hc : c = ']'
    · subst hc
      rfl
    · rw [List.cons_append]
      split
      · next h => exact absurd (List.cons.inj h).1 hc
      · split
        · next h => exact absurd (List.cons.inj h).1 hc
        · rfl

/-- An index whose sign is read already. -/
def readUnsigned? (negative : Bool) (cs : List Char) : Option (Bool × List Char × List Char) :=
  if (cs.takeWhile isDecimalDigit).isEmpty then none
  else
    (closeBracket? (cs.dropWhile isDecimalDigit)).map fun rest =>
      (negative, cs.takeWhile isDecimalDigit, rest)

theorem readIndex?_minus (cs : List Char) : readIndex? ('-' :: cs) = readUnsigned? true cs := rfl

theorem readIndex?_of_head? (h : cs.head? ≠ some '-') : readIndex? cs = readUnsigned? false cs := by
  cases cs with
  | nil => rfl
  | cons c cs =>
    have hc : c ≠ '-' := fun hc => h (congrArg some hc)
    simp [readIndex?, readUnsigned?, hc]

theorem readUnsigned?_append (htail : IsSequel tail) (negative : Bool) (cs : List Char) :
    readUnsigned? negative (cs ++ tail) =
      (readUnsigned? negative cs).map fun (sign, digits, rest) => (sign, digits, rest ++ tail) := by
  have hpoint : isDecimalDigit '.' = false := by decide
  have hbracket : isDecimalDigit '[' = false := by decide
  rw [readUnsigned?, readUnsigned?, takeWhile_append_sequel htail hpoint hbracket,
    dropWhile_append_sequel htail hpoint hbracket, closeBracket?_append htail]
  split
  · rfl
  · rw [Option.map_map, Option.map_map]
    rfl

theorem readIndex?_append (htail : IsSequel tail) (cs : List Char) :
    readIndex? (cs ++ tail) =
      (readIndex? cs).map fun (sign, digits, rest) => (sign, digits, rest ++ tail) := by
  by_cases hsign : cs.head? = some '-'
  · obtain ⟨cs, rfl⟩ := List.head?_eq_some_iff.mp hsign
    exact readUnsigned?_append htail true cs
  · have hsign' : (cs ++ tail).head? ≠ some '-' := by
      cases cs with
      | nil =>
        intro hhead
        rcases htail '-' hhead with h | h <;> cases h
      | cons c cs => exact hsign
    rw [readIndex?_of_head? hsign, readIndex?_of_head? hsign', readUnsigned?_append htail]

/-- What begins with neither a digit nor a sign is no index. -/
theorem readIndex?_eq_none {c : Char} (hdigit : isDecimalDigit c = false) (hsign : c ≠ '-')
    (cs : List Char) : readIndex? (c :: cs) = none := by
  have hhead : (c :: cs).head? ≠ some '-' := fun h => hsign (Option.some.inj h)
  rw [readIndex?_of_head? hhead, readUnsigned?, List.takeWhile_cons, hdigit]
  rfl

theorem readQuoted?_append (htail : IsSequel tail) {mark : Char} : ∀ {cs inner rest : List Char},
    readQuoted? mark cs = some (inner, rest) →
      readQuoted? mark (cs ++ tail) = some (inner, rest ++ tail)
  | [], _, _, h => by cases h
  | c :: cs, inner, rest, h => by
    have hclose : (if c = mark then closeBracket? (cs ++ tail) else none) =
        (if c = mark then closeBracket? cs else none).map (· ++ tail) := by
      split
      · exact closeBracket?_append htail cs
      · rfl
    rw [readQuoted?] at h
    rw [List.cons_append, readQuoted?, hclose]
    cases hquote : (if c = mark then closeBracket? cs else none) with
    | some behind =>
      rw [hquote] at h
      cases h
      rfl
    | none =>
      rw [hquote] at h
      dsimp only [Option.map_none] at h ⊢
      split at h
      · cases h
      · next hline =>
        obtain ⟨⟨inner', rest'⟩, hread, heq⟩ := Option.map_eq_some_iff.mp h
        cases heq
        rw [if_neg hline, readQuoted?_append htail hread]
        rfl

theorem readBracket?_append (htail : IsSequel tail) {s : Segment}
    (h : readBracket? cs = .ok (some (s, rest))) :
    readBracket? (cs ++ tail) = .ok (some (s, rest ++ tail)) := by
  unfold readBracket? at h ⊢
  rw [dropWhile_append_sequel htail (by decide) (by decide)]
  generalize cs.dropWhile isBlank = cs at h ⊢
  dsimp only at h ⊢
  rw [readIndex?_append htail]
  cases hindex : readIndex? cs with
  | some index =>
    obtain ⟨negative, digits, behind⟩ := index
    rw [hindex] at h
    obtain ⟨_, hdigits, heq⟩ := Except.map_eq_ok_iff.mp h
    cases heq
    dsimp only [Option.map_some]
    rw [hdigits]
    rfl
  | none =>
    rw [hindex] at h
    replace h := Except.ok.inj h
    refine congrArg Except.ok ?_
    split at h
    · obtain ⟨behind, hclose, heq⟩ := Option.map_eq_some_iff.mp h
      cases heq
      simp [closeBracket?_append htail, hclose]
    · next mark cs _ =>
      split at h
      · next hquote =>
        obtain ⟨⟨inner, behind⟩, hread, heq⟩ := Option.map_eq_some_iff.mp h
        cases heq
        simp [hquote, readQuoted?_append htail hread]
      · cases h
    · cases h

/-- **One segment is read as before when more text is behind it.** -/
theorem read?_append (htail : IsSequel tail) {s : Segment} (h : read? cs = .ok (some (s, rest))) :
    read? (cs ++ tail) = .ok (some (s, rest ++ tail)) := by
  unfold read? at h
  split at h
  · next cs =>
    have h := Except.ok.inj h
    rw [List.cons_append, read?, takeWhile_append_sequel htail (by decide) (by decide),
      dropWhile_append_sequel htail (by decide) (by decide)]
    split at h
    · cases h
    · next hkey =>
      cases h
      simp [hkey]
  · exact readBracket?_append htail h
  · cases h

/-! ## All segments of a text -/

theorem length_lt_of_read? {c : Char} {s : Segment} (h : read? (c :: cs) = .ok (some (s, rest))) :
    rest.length < (c :: cs).length := by
  unfold read? at h
  split at h
  · next cs' heq =>
    obtain ⟨rfl, rfl⟩ := List.cons.inj heq
    have h := Except.ok.inj h
    split at h
    · cases h
    · cases h
      exact Nat.lt_succ_of_le (List.dropWhile_suffix _).length_le
  · next cs' heq =>
    obtain ⟨rfl, rfl⟩ := List.cons.inj heq
    exact Nat.lt_succ_of_le (suffix_of_readBracket? h).length_le
  · cases h

/-- Fuel for each character of a text is enough. -/
theorem readAll_eq_of_le : ∀ {fuel more : Nat} {cs : List Char}, cs.length ≤ fuel → fuel ≤ more →
    readAll more cs = readAll fuel cs
  | 0, 0, [], _, _ | 0, _ + 1, [], _, _ | _ + 1, _ + 1, [], _, _ => rfl
  | fuel + 1, more + 1, c :: cs, hfuel, hmore => by
    rw [readAll, readAll]
    split
    · rfl
    · rfl
    · next s rest hread =>
      have hlt := length_lt_of_read? hread
      rw [readAll_eq_of_le (by omega) (Nat.le_of_succ_le_succ hmore)]

/-- The segments of a text come before those of its sequel. -/
theorem readAll_append (htail : IsSequel tail) : ∀ {fuel more : Nat} {cs : List Char}
    {ss : List Segment}, readAll fuel cs = .ok (some ss) → (cs ++ tail).length ≤ more →
      readAll more (cs ++ tail) = (readAll more tail).map (Option.map (ss ++ ·))
  | fuel, more, [], ss, h, _ => by
    obtain rfl : [] = ss := by
      cases fuel <;> exact Option.some.inj (Except.ok.inj h)
    rw [List.nil_append]
    cases readAll more tail with
    | error f => rfl
    | ok found => cases found <;> rfl
  | fuel + 1, more + 1, c :: cs, ss, h, hmore => by
    rw [readAll] at h
    split at h
    · cases h
    · cases h
    · next s rest hread =>
      split at h
      · cases h
      · cases h
      · next ss' hrest =>
        cases h
        have hlt := length_lt_of_read? hread
        have htailMore : tail.length ≤ more := by
          simp only [List.length_append, List.length_cons] at hmore
          omega
        have hmoreRest : (rest ++ tail).length ≤ more := by
          simp only [List.length_append, List.length_cons] at hlt hmore ⊢
          omega
        -- The sequel may be read with any fuel that covers it.
        have hih : readAll more (rest ++ tail) = (readAll more tail).map (Option.map (ss' ++ ·)) :=
          readAll_append htail hrest hmoreRest
        rw [List.cons_append, readAll, ← List.cons_append, read?_append htail hread]
        dsimp only
        rw [hih, readAll_eq_of_le htailMore (Nat.le_succ more)]
        cases readAll more tail with
        | error f => rfl
        | ok found => cases found <;> rfl

/-- A text grows by the point that is put before it, if one is. -/
theorem length_withPoint (cs : List Char) :
    cs.length ≤ (withPoint cs).length ∧ (withPoint cs).length ≤ cs.length + 1 := by
  cases cs with
  | nil => exact ⟨Nat.le_refl _, Nat.zero_le _⟩
  | cons c cs =>
    rw [withPoint]
    split
    · exact ⟨Nat.le_refl _, Nat.le_succ _⟩
    · exact ⟨Nat.le_succ _, Nat.le_refl _⟩

theorem withPoint_append (cs : List Char) (htail : IsSequel tail) :
    withPoint (cs ++ tail) = withPoint cs ++ tail := by
  cases cs with
  | nil => exact withPoint_of_isSequel htail
  | cons c cs =>
    rw [List.cons_append, withPoint, withPoint]
    split <;> rfl

/-- **The segments of two texts are those of their concatenation**, where the second is given the
point that it may do without alone. -/
theorem ofChars_append {cs : List Char} {ss : List Segment} (h : ofChars cs = .ok (some ss))
    (ds : List Char) : ofChars (cs ++ withPoint ds) = (ofChars ds).map (Option.map (ss ++ ·)) := by
  have htail : IsSequel (withPoint ds) := isSequel_withPoint ds
  have hcs := length_withPoint cs
  have hds := length_withPoint ds
  have hfuel : (withPoint cs ++ withPoint ds).length ≤ (cs ++ withPoint ds).length + 1 := by
    simp only [List.length_append]
    omega
  have hmore : ds.length + 1 ≤ (cs ++ withPoint ds).length + 1 := by
    simp only [List.length_append]
    omega
  rw [ofChars, withPoint_append cs htail, readAll_append htail h hfuel,
    readAll_eq_of_le hds.2 hmore, ofChars]

/-! ## Where segments lead, one after another -/

variable {ss ts : List Segment} {root v : Value}

/-- **The values at the end of a path are those at the end of its second part**, from each value at
the end of its first part in turn. -/
theorem walk_append_eq_flatMap (ss ts : List Segment) (root : Value) :
    walk (ss ++ ts) root = (walk ss root).flatMap (walk ts) := by
  induction ss generalizing root with
  | nil => rw [List.nil_append, walk_nil, List.flatMap_singleton]
  | cons s ss ih =>
    rw [List.cons_append, walk_cons, walk_cons, List.flatMap_assoc]
    exact List.flatMap_congr fun v _ => ih v

theorem length_step_le {s : Segment} (h : s ≠ .every) (v : Value) : (s.step v).length ≤ 1 := by
  have hone : ∀ found : Option Value, found.toList.length ≤ 1 := fun found => by
    cases found <;> simp
  cases s with
  | every => exact absurd rfl h
  | key name => exact hone _
  | index i =>
    cases v with
    | list mark items => exact hone _
    | _ => exact Nat.zero_le _

theorem hasWildcard_cons {s : Segment} (h : hasWildcard (s :: ss) = false) :
    s ≠ .every ∧ hasWildcard ss = false := by
  rw [hasWildcard, List.contains_cons, Bool.or_eq_false_iff, beq_eq_false_iff_ne] at h
  exact ⟨h.1.symm, h.2⟩

/-- **Without a wildcard, segments lead to one value at most.** -/
theorem length_walk_le (h : hasWildcard ss = false) (root : Value) : (walk ss root).length ≤ 1 := by
  induction ss generalizing root with
  | nil => exact Nat.le_refl _
  | cons s ss ih =>
    obtain ⟨hs, hss⟩ := hasWildcard_cons h
    have hone := length_step_le hs root
    rw [walk_cons]
    cases hstep : s.step root with
    | nil => exact Nat.zero_le _
    | cons v rest =>
      rw [hstep, List.length_cons] at hone
      obtain rfl : rest = [] := List.eq_nil_of_length_eq_zero (by omega)
      simpa using ih hss v

/-- Without a wildcard, segments lead nowhere or to one value. -/
theorem walk_cases (h : hasWildcard ss = false) (root : Value) :
    walk ss root = [] ∨ ∃ v, walk ss root = [v] := by
  have hone := length_walk_le h root
  cases hwalk : walk ss root with
  | nil => exact .inl rfl
  | cons v rest =>
    rw [hwalk, List.length_cons] at hone
    obtain rfl : rest = [] := List.eq_nil_of_length_eq_zero (by omega)
    exact .inr ⟨v, rfl⟩

theorem resolve_eq_head? (h : hasWildcard ss = false) (root : Value) :
    resolve ss root = (walk ss root).head? := by
  rw [resolve]
  rcases walk_cases h root with hwalk | ⟨v, hwalk⟩ <;> rw [hwalk] <;> rfl

/-- The values at the end of a path taken as one: the only one, or a list of several. -/
def together : List Value → Option Value
  | [] => none
  | [v] => some v
  | values => some (.ofItems values)

/-- Segments lead to the values at their end, taken as one: without a wildcard there are not
several. -/
theorem resolve_eq_together (ss : List Segment) (root : Value) :
    resolve ss root = together (walk ss root) := by
  rw [resolve]
  cases hwild : hasWildcard ss with
  | true => rcases walk ss root with _ | ⟨v, _ | ⟨w, rest⟩⟩ <;> rfl
  | false => rcases walk_cases hwild root with hwalk | ⟨v, hwalk⟩ <;> rw [hwalk] <;> rfl

theorem hasWildcard_append (ss ts : List Segment) :
    hasWildcard (ss ++ ts) = (hasWildcard ss || hasWildcard ts) := by
  simp [hasWildcard]

/-- Without a wildcard, segments lead to what the later ones lead to from where the earlier lead. -/
theorem resolve_append (hss : hasWildcard ss = false) (hts : hasWildcard ts = false)
    (root : Value) : resolve (ss ++ ts) root = (resolve ss root).bind (resolve ts) := by
  have hboth : hasWildcard (ss ++ ts) = false := by rw [hasWildcard_append, hss, hts]; rfl
  rw [resolve_eq_head? hboth, resolve_eq_head? hss, walk_append_eq_flatMap]
  rcases walk_cases hss root with hwalk | ⟨v, hwalk⟩
  · rw [hwalk]
    rfl
  · rw [hwalk, List.flatMap_singleton, List.head?_cons, Option.bind_some, resolve_eq_head? hts]

end Segment

namespace Path

/-- The path of a text that starts at the root. -/
def rooted (cs : List Char) : String := String.ofList ('$' :: cs)

theorem isRooted_rooted (cs : List Char) : isRooted (rooted cs) = true := by
  simp [isRooted, rooted]

theorem segments_rooted (cs : List Char) : segments (rooted cs) = Segment.ofChars cs := by
  rw [segments, if_pos (isRooted_rooted cs), rooted, String.toList_ofList]
  rfl

/-- A path that starts at the root leads to where its segments lead. -/
theorem resolve_of_isRooted {path : String} (h : isRooted path = true) {ss : List Segment}
    (hss : segments path = .ok (some ss)) (root : Value) :
    resolve path root = .ok (Segment.resolve ss root) := by
  have hliteral : literal? path root = none := by rw [literal?, if_pos h]
  rw [resolve, hliteral, hss]

/-- A path that starts at the root and goes along segments without a wildcard. -/
structure GoesAlong (path : String) (ss : List Segment) : Prop where
  rooted : isRooted path = true
  segments : segments path = .ok (some ss)
  plain : Segment.hasWildcard ss = false

theorem GoesAlong.resolve {path : String} {ss : List Segment} (h : GoesAlong path ss)
    (root : Value) : resolve path root = .ok (Segment.resolve ss root) :=
  resolve_of_isRooted h.rooted h.segments root

/-- **Paths compose.**  Segments lead to what the later ones lead to from each of the values that
the earlier ones lead to, in order; without a wildcard that is one value at most.  So a path along
two parts leads to where the second one leads from what the first one leads to, and nowhere when one
of them leads nowhere; and it is written by putting the texts of both one after the other. -/
theorem resolve_composes :
    (∀ (ss ts : List Segment) (root : Value),
      Segment.walk (ss ++ ts) root = (Segment.walk ss root).flatMap (Segment.walk ts)) ∧
    (∀ (ss : List Segment) (root : Value), Segment.hasWildcard ss = false →
      (Segment.walk ss root).length ≤ 1) ∧
    (∀ (first second whole : String) (ss ts : List Segment), GoesAlong first ss →
      GoesAlong second ts → GoesAlong whole (ss ++ ts) → ∀ root : Value,
        resolve whole root = (resolve first root).bind fun
          | some v => resolve second v
          | none => .ok none) ∧
    ∀ (cs ds : List Char) (ss ts : List Segment), segments (rooted cs) = .ok (some ss) →
      segments (rooted ds) = .ok (some ts) →
      segments (rooted (cs ++ Segment.withPoint ds)) = .ok (some (ss ++ ts)) := by
  refine ⟨Segment.walk_append_eq_flatMap, fun ss root h => Segment.length_walk_le h root, ?_, ?_⟩
  · intro first second whole ss ts hfirst hsecond hwhole root
    rw [hwhole.resolve, hfirst.resolve, Segment.resolve_append hfirst.plain hsecond.plain]
    cases Segment.resolve ss root with
    | none => rfl
    | some v => exact (hsecond.resolve v).symm
  · intro cs ds ss ts hcs hds
    rw [segments_rooted] at hcs hds ⊢
    rw [Segment.ofChars_append hcs, hds]
    rfl

/-- An item counted from the back, and a field of it that the second part names without its
point. -/
theorem resolve_composes_of_item :
    let root := Value.ofFields [("items", .ofItems [.null, .ofFields [("sku", .str "X2")]])]
    let whole := rooted (".items[-1]".toList ++ Segment.withPoint "sku".toList)
    (GoesAlong (rooted ".items[-1]".toList) [.key "items", .index (-1)] ∧
      GoesAlong (rooted "sku".toList) [.key "sku"]) ∧
    (Segment.walk [.key "items", .index (-1)] root).length ≤ 1 ∧
    segments whole = .ok (some [.key "items", .index (-1), .key "sku"]) ∧
    resolve whole root = (resolve (rooted ".items[-1]".toList) root).bind fun
      | some v => resolve (rooted "sku".toList) v
      | none => .ok none := by
  intro root whole
  have hfirst : GoesAlong (rooted ".items[-1]".toList) [.key "items", .index (-1)] :=
    ⟨by decide, by rfl, by decide⟩
  have hsecond : GoesAlong (rooted "sku".toList) [.key "sku"] := ⟨by decide, by rfl, by decide⟩
  obtain ⟨-, hone, hresolve, hsegments⟩ := resolve_composes
  have hboth : segments whole = .ok (some [.key "items", .index (-1), .key "sku"]) :=
    hsegments _ _ _ _ hfirst.segments hsecond.segments
  have hwhole : GoesAlong whole ([.key "items", .index (-1)] ++ [.key "sku"]) :=
    ⟨isRooted_rooted _, hboth, by decide⟩
  exact ⟨⟨hfirst, hsecond⟩, hone _ root hfirst.plain, hboth,
    hresolve _ _ _ _ _ hfirst hsecond hwhole root⟩

end Path

end Verdict
