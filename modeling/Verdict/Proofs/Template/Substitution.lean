import Verdict.Proofs.Evaluation.Limit

/-!
# Proofs/Template/Substitution — filling a message is one substitution

    around │ $.a │ around │ $.b │ around        the parts of a text
             ▾              ▾
    around │  1  │ around │ $.b │ around        expressions that lead somewhere, replaced

The **parts** of a text are its expressions, each where it was found, and what stands around them.  To
substitute is to replace each expression by the text of what it leads to, all at once.  Filling goes from
expression to expression, and replaces the first text that reads like it.  That is the expression itself
if it **stands first**: then filling is substituting (`Template.fill_eq_substituted`).
-/

namespace Verdict

namespace Template

/-! ## The parts of a text -/

/-- A part of a text: characters around expressions, or an expression. -/
inductive Part where
  | around (cs : List Char)
  | path (cs : List Char)

namespace Part

/-- The characters of a part. -/
def chars : Part → List Char
  | .around cs | .path cs => cs

/-- The expression that a part is. -/
def expression? : Part → Option String
  | .around _ => none
  | .path cs => some (String.ofList cs)

/-- The parts of a raw expression: the expression it is trimmed to, and what is trimmed off. -/
def ofRaw (raw : List Char) : List Part :=
  if startsLikePath (trim raw) then [.path (trim raw), .around (raw.drop (trim raw).length)]
  else [.around raw]

end Part

/-- The parts of some characters from left to right, found as raw expressions are. -/
def partsOf : Nat → List Char → List Part
  | 0, cs => [.around cs]
  | _ + 1, [] => []
  | fuel + 1, c :: rest =>
    let front := rest.takeWhile isPathChar
    if c = '$' && !front.isEmpty then
      let (groups, after) := readGroups (rest.length + 1) (rest.dropWhile isPathChar)
      Part.ofRaw (c :: front ++ groups) ++ partsOf fuel after
    else .around [c] :: partsOf fuel rest

/-- The parts of a text. -/
def parts (s : String) : List Part := partsOf (s.length + 1) s.toList

theorem chars_ofRaw (raw : List Char) : (Part.ofRaw raw).flatMap Part.chars = raw := by
  rw [Part.ofRaw]
  split
  · rw [List.flatMap_cons, List.flatMap_singleton]
    exact List.prefix_iff_eq_append.mp (isPrefix_trim raw)
  · exact List.flatMap_singleton ..

theorem expressions_ofRaw (raw : List Char) :
    (Part.ofRaw raw).filterMap Part.expression? =
      (([raw].map trim).filter startsLikePath).map String.ofList := by
  rw [Part.ofRaw, List.map_singleton, List.filter_cons, List.filter_nil]
  split <;> rfl

/-- **The parts of a text make it up.** -/
theorem chars_partsOf : ∀ (fuel : Nat) (cs : List Char), (partsOf fuel cs).flatMap Part.chars = cs
  | 0, cs => List.flatMap_singleton ..
  | _ + 1, [] => rfl
  | fuel + 1, c :: rest => by
    rw [partsOf]
    dsimp only
    split
    · have hgroups := append_readGroups (rest.length + 1) (rest.dropWhile isPathChar)
      rw [List.flatMap_append, chars_ofRaw, chars_partsOf fuel, List.cons_append, List.cons_append,
        List.append_assoc, hgroups, List.takeWhile_append_dropWhile]
    · rw [List.flatMap_cons, chars_partsOf fuel]
      rfl

theorem expressions_partsOf : ∀ (fuel : Nat) (cs : List Char),
    (partsOf fuel cs).filterMap Part.expression? =
      (((rawExpressions fuel cs).map trim).filter startsLikePath).map String.ofList
  | 0, _ => rfl
  | _ + 1, [] => rfl
  | fuel + 1, c :: rest => by
    rw [partsOf, rawExpressions]
    dsimp only
    split
    · rw [List.filterMap_append, expressions_ofRaw, expressions_partsOf fuel, ← List.map_append,
        ← List.filter_append, ← List.map_append, List.singleton_append]
    · rw [List.filterMap_cons, expressions_partsOf fuel]
      rfl

/-- **The expressions among the parts of a text are its expressions.** -/
theorem expressions_parts (s : String) : (parts s).filterMap Part.expression? = expressions s :=
  expressions_partsOf ..

/-! ## Substituting -/

/-- A part with a value in it: an expression that leads somewhere becomes the text of what it leads to,
everything else stays. -/
def Part.filled (context : Value) : Part → Except Fault (List Char)
  | .around cs => .ok cs
  | .path cs => do
    match ← Path.resolve (String.ofList cs) context with
    | none => .ok cs
    | some v => v.readable.map String.toList

/-- Parts one after another, with values in them. -/
def filledAll (context : Value) : List Part → Except Fault (List Char)
  | [] => .ok []
  | p :: rest => do
    let cs ← p.filled context
    let later ← filledAll context rest
    .ok (cs ++ later)

/-- A text with all its expressions replaced at once. -/
def substituted (s : String) (context : Value) : Except Fault String :=
  (filledAll context (parts s)).map String.ofList

/-- The text of an expression occurs before the place behind some characters, where it stands. -/
def OccursEarlier (cs done : List Char) : Prop :=
  ∃ before after, after ≠ [] ∧ done ++ cs = before ++ cs ++ after

/-- Each expression that leads somewhere is the first text that reads like it, once the expressions
before it are replaced. -/
def StandFirst (context : Value) (ps : List Part) : Prop :=
  ∀ before cs after, ps = before ++ .path cs :: after →
    (∃ v, Path.resolve (String.ofList cs) context = .ok (some v)) →
    ∀ done, filledAll context before = .ok done → ¬ OccursEarlier cs done

variable {context : Value} {cs done : List Char} {p : Part} {ps : List Part} {f : Fault}

theorem filledAll_cons_of_ok (h : p.filled context = .ok cs) (rest : List Part) :
    filledAll context (p :: rest) = (filledAll context rest).map (cs ++ ·) := by
  rw [filledAll, h]
  cases filledAll context rest <;> rfl

theorem filledAll_cons_of_error (h : p.filled context = .error f) (rest : List Part) :
    filledAll context (p :: rest) = .error f := by
  rw [filledAll, h]
  rfl

theorem filledAll_concat (hdone : filledAll context ps = .ok done) (hp : p.filled context = .ok cs) :
    filledAll context (ps ++ [p]) = .ok (done ++ cs) := by
  induction ps generalizing done with
  | nil =>
    cases hdone
    rw [List.nil_append, filledAll_cons_of_ok hp]
    exact congrArg Except.ok (List.append_nil cs)
  | cons q rest ih =>
    obtain ⟨ds, hq, -⟩ := Except.bind_eq_ok_iff.mp hdone
    rw [filledAll_cons_of_ok hq] at hdone
    obtain ⟨later, hlater, rfl⟩ := Except.map_eq_ok_iff.mp hdone
    rw [List.cons_append, filledAll_cons_of_ok hq, ih hlater, List.append_assoc]
    rfl

/-! ## Replacing the first occurrence -/

theorem replaceFirst_append (old new rest : List Char) :
    replaceFirst old new (old ++ rest) = new ++ rest := by
  cases h : old ++ rest with
  | nil =>
    obtain ⟨rfl, rfl⟩ := List.append_eq_nil_iff.mp h
    exact (List.append_nil new).symm
  | cons c cs =>
    have hold : old <+: c :: cs := ⟨rest, h⟩
    rw [replaceFirst, if_pos (List.isPrefixOf_iff_prefix.mpr hold), ← h, List.drop_left]

/-- **A text that does not occur earlier is replaced where it stands.** -/
theorem replaceFirst_of_not_occursEarlier (new rest : List Char) (h : ¬ OccursEarlier cs done) :
    replaceFirst cs new (done ++ (cs ++ rest)) = done ++ (new ++ rest) := by
  induction done with
  | nil => exact replaceFirst_append cs new rest
  | cons c done ih =>
    have hnot : ¬ cs <+: c :: (done ++ (cs ++ rest)) := by
      intro hprefix
      have hshort : cs <+: c :: done ++ cs := by
        refine List.prefix_of_prefix_length_le hprefix ⟨rest, ?_⟩
          (List.suffix_append ..).length_le
        rw [List.append_assoc, List.cons_append]
      obtain ⟨after, hafter⟩ := hshort
      refine h ⟨[], after, ?_, hafter.symm⟩
      rintro rfl
      have hlength := congrArg List.length hafter
      rw [List.append_nil, List.length_append, List.length_cons] at hlength
      omega
    have hrest : ¬ OccursEarlier cs done := fun ⟨before, after, hne, heq⟩ =>
      h ⟨c :: before, after, hne, congrArg (c :: ·) heq⟩
    rw [List.cons_append, replaceFirst, if_neg (mt List.isPrefixOf_iff_prefix.mp hnot), ih hrest]
    rfl

/-! ## Filling -/

/-- Filling in one expression stops where substituting it does, whatever the text has become. -/
theorem exists_fillOne_eq_map (context : Value) (text : String) (cs : List Char) :
    ∃ g, fillOne context text (String.ofList cs) = ((Part.path cs).filled context).map g := by
  rw [fillOne, Part.filled]
  cases Path.resolve (String.ofList cs) context with
  | error f => exact ⟨fun _ => text, rfl⟩
  | ok found =>
    cases found with
    | none => exact ⟨fun _ => text, rfl⟩
    | some v =>
      refine ⟨fun new => String.ofList (replaceFirst (String.ofList cs).toList
        (String.ofList new).toList text.toList), ?_⟩
      dsimp only [bind, Except.bind]
      cases v.readable with
      | error f => rfl
      | ok new => simp only [Except.map, String.ofList_toList]

/-- An expression that does not occur earlier is filled in where it stands. -/
theorem fillOne_of_not_occursEarlier (rest : List Char)
    (h : (∃ v, Path.resolve (String.ofList cs) context = .ok (some v)) → ¬ OccursEarlier cs done) :
    fillOne context (String.ofList (done ++ (cs ++ rest))) (String.ofList cs) =
      ((Part.path cs).filled context).map fun new => String.ofList (done ++ (new ++ rest)) := by
  rw [fillOne, Part.filled]
  cases hfound : Path.resolve (String.ofList cs) context with
  | error f => rfl
  | ok found =>
    cases found with
    | none => rfl
    | some v =>
      have hreplace := fun new => replaceFirst_of_not_occursEarlier new rest (h ⟨v, hfound⟩)
      dsimp only [bind, Except.bind]
      cases v.readable with
      | error f => rfl
      | ok text => simp only [Except.map, String.toList_ofList, hreplace]

/-- **Filling stops where substituting does**, with the same fault. -/
theorem foldlM_fillOne_eq_error_iff (f : Fault) : ∀ (ps : List Part) (text : String),
    (ps.filterMap Part.expression?).foldlM (fillOne context) text = .error f ↔
      filledAll context ps = .error f
  | [], _ => ⟨nofun, nofun⟩
  | .around cs :: rest, text => by
    rw [filledAll_cons_of_ok (rfl : (Part.around cs).filled context = .ok cs),
      Except.map_eq_error_iff]
    exact foldlM_fillOne_eq_error_iff f rest text
  | .path cs :: rest, text => by
    obtain ⟨g, hg⟩ := exists_fillOne_eq_map context text cs
    rw [List.filterMap_cons]
    dsimp only [Part.expression?]
    rw [List.foldlM_cons, hg]
    cases hfilled : (Part.path cs).filled context with
    | error f' =>
      rw [filledAll_cons_of_error hfilled]
      exact ⟨fun h => (by cases h; rfl), fun h => (by cases h; rfl)⟩
    | ok new =>
      rw [filledAll_cons_of_ok hfilled, Except.map_eq_error_iff]
      exact foldlM_fillOne_eq_error_iff f rest (g new)

/-- From the parts that are filled in already, filling goes on as substituting does. -/
theorem foldlM_fillOne_of_standFirst (h : StandFirst context ps) :
    ∀ {rest before : List Part} {done : List Char}, ps = before ++ rest →
      filledAll context before = .ok done →
      (rest.filterMap Part.expression?).foldlM (fillOne context)
          (String.ofList (done ++ rest.flatMap Part.chars)) =
        (filledAll context rest).map fun later => String.ofList (done ++ later)
  | [], _, _, _, _ => rfl
  | p :: rest, before, done, hps, hdone => by
    have hgo : ∀ cs, p.filled context = .ok cs →
        (rest.filterMap Part.expression?).foldlM (fillOne context)
            (String.ofList (done ++ (cs ++ rest.flatMap Part.chars))) =
          (filledAll context (p :: rest)).map fun later => String.ofList (done ++ later) := by
      intro cs hcs
      have hsplit : ps = (before ++ [p]) ++ rest := hps.trans (List.append_cons ..)
      have hrest := foldlM_fillOne_of_standFirst h hsplit (filledAll_concat hdone hcs)
      rw [List.append_assoc] at hrest
      rw [hrest, filledAll_cons_of_ok hcs]
      cases filledAll context rest with
      | error f => rfl
      | ok later => simp only [Except.map, List.append_assoc]
    rw [List.flatMap_cons, List.filterMap_cons]
    cases p with
    | around cs => exact hgo cs rfl
    | path cs =>
      dsimp only [Part.expression?, Part.chars]
      rw [List.foldlM_cons, fillOne_of_not_occursEarlier _ fun hv => h before cs rest hps hv done hdone]
      cases hfilled : (Part.path cs).filled context with
      | error f =>
        rw [filledAll_cons_of_error hfilled]
        rfl
      | ok new => exact hgo new hfilled

/-! ## Texts without other dollar signs -/

/-- Whether a part has no dollar sign once a value is in it. -/
def Part.isClear (context : Value) (p : Part) : Bool :=
  match p.filled context with
  | .ok cs => !cs.contains '$'
  | .error _ => true

theorem not_mem_of_isClear (h : ∀ p ∈ ps, p.isClear context = true)
    (hdone : filledAll context ps = .ok done) : '$' ∉ done := by
  induction ps generalizing done with
  | nil =>
    cases hdone
    exact List.not_mem_nil
  | cons p rest ih =>
    obtain ⟨hp, hrest⟩ := List.forall_mem_cons.mp h
    obtain ⟨cs, hcs, -⟩ := Except.bind_eq_ok_iff.mp hdone
    rw [filledAll_cons_of_ok hcs] at hdone
    obtain ⟨later, hlater, rfl⟩ := Except.map_eq_ok_iff.mp hdone
    rw [Part.isClear, hcs, Bool.not_eq_true', List.contains_eq_mem, decide_eq_false_iff_not] at hp
    exact fun hmem => (List.mem_append.mp hmem).elim hp (ih hrest hlater)

theorem startsLikePath_of_mem_ofRaw {raw : List Char} (h : .path cs ∈ Part.ofRaw raw) :
    startsLikePath cs = true := by
  rw [Part.ofRaw] at h
  split at h
  · next hpath =>
    rcases List.mem_cons.mp h with heq | h
    · cases heq
      exact hpath
    · cases List.mem_singleton.mp h
  · cases List.mem_singleton.mp h

theorem startsLikePath_of_mem_partsOf : ∀ {fuel : Nat} {text : List Char},
    .path cs ∈ partsOf fuel text → startsLikePath cs = true
  | 0, _, h => by cases List.mem_singleton.mp h
  | _ + 1, [], h => by cases h
  | fuel + 1, c :: rest, h => by
    rw [partsOf] at h
    dsimp only at h
    split at h
    · exact (List.mem_append.mp h).elim startsLikePath_of_mem_ofRaw startsLikePath_of_mem_partsOf
    · rcases List.mem_cons.mp h with heq | h
      · cases heq
      · exact startsLikePath_of_mem_partsOf h

theorem exists_cons_of_startsLikePath (h : startsLikePath cs = true) : ∃ rest, cs = '$' :: rest := by
  unfold startsLikePath at h
  split at h
  · exact ⟨_, rfl⟩
  · exact ⟨_, rfl⟩
  · cases h

/-- What starts with a dollar sign does not occur before the first of them. -/
theorem not_occursEarlier_of_not_mem {rest : List Char} (h : '$' ∉ done) :
    ¬ OccursEarlier ('$' :: rest) done := by
  rintro ⟨before, after, hne, heq⟩
  have hlength : 0 < after.length := List.length_pos_iff.mpr hne
  rw [List.append_assoc] at heq
  rcases List.append_eq_append_iff.mp heq with ⟨mid, -, hmid⟩ | ⟨mid, rfl, hmid⟩
  · have hmid := congrArg List.length hmid
    simp only [List.length_append, List.length_cons] at hmid
    omega
  · cases mid with
    | nil =>
      have hmid := congrArg List.length hmid
      simp only [List.nil_append, List.length_append, List.length_cons] at hmid
      omega
    | cons c mid =>
      obtain ⟨rfl, -⟩ := List.cons.inj hmid
      exact h (List.mem_append_right _ (List.mem_cons_self ..))

/-- **Each expression stands first where every one leads somewhere, and there are no other dollar signs,
in the text or in what they lead to.** -/
theorem standFirst_of_isClear {s : String} (h : (parts s).all (Part.isClear context) = true) :
    StandFirst context (parts s) := by
  intro before cs after hps _ done hdone
  have hclear := List.all_eq_true.mp h
  rw [hps, List.forall_mem_append] at hclear
  have hmem : Part.path cs ∈ parts s := hps ▸ List.mem_append_right _ (List.mem_cons_self ..)
  obtain ⟨rest, rfl⟩ := exists_cons_of_startsLikePath (startsLikePath_of_mem_partsOf hmem)
  exact not_occursEarlier_of_not_mem (not_mem_of_isClear hclear.1 hdone)

/-! ## Filling is substituting -/

/-- **Filling a text replaces its expressions at once, each where it was found and by the text of what
it leads to, if each stands first.**  In any case it stops where substituting does. -/
theorem fill_eq_substituted (s : String) (context : Value) :
    ((parts s).flatMap Part.chars = s.toList ∧ (parts s).filterMap Part.expression? = expressions s) ∧
    (∀ f, fill s context = .error f ↔ substituted s context = .error f) ∧
    (StandFirst context (parts s) → fill s context = substituted s context) := by
  have hchars : (parts s).flatMap Part.chars = s.toList := chars_partsOf ..
  refine ⟨⟨hchars, expressions_parts s⟩, fun f => ?_, fun h => ?_⟩
  · rw [fill, ← expressions_parts, foldlM_fillOne_eq_error_iff, substituted, Except.map_eq_error_iff]
  · have hfill := foldlM_fillOne_of_standFirst h (List.nil_append _).symm rfl
    rw [List.nil_append, hchars, String.ofList_toList, expressions_parts] at hfill
    exact hfill

/-- A message with two values in it. -/
theorem fill_eq_substituted_of_greeting :
    let s := "Hello $.name, you are ($.age[0])."
    let context := Value.ofFields [("name", .str "Ann"), ("age", .ofItems [.int 30])]
    StandFirst context (parts s) ∧ fill s context = substituted s context := by
  intro s context
  have hclear : (parts s).all (Part.isClear context) = true := by decide
  have h : StandFirst context (parts s) := standFirst_of_isClear hclear
  exact ⟨h, (fill_eq_substituted s context).2.2 h⟩

/-- An expression that leads nowhere does not stay as it is: the next one reads like its beginning. -/
theorem fill_misses :
    let context := Value.ofFields [("a", .int 1)]
    fill "$.ab $.a" context = .ok "1b $.a" ∧ substituted "$.ab $.a" context = .ok "$.ab 1" ∧
      fill "$.ab $.a" context ≠ substituted "$.ab $.a" context := by
  intro context
  have hfill : fill "$.ab $.a" context = .ok "1b $.a" := by rfl
  have hsubstituted : substituted "$.ab $.a" context = .ok "$.ab 1" := by rfl
  refine ⟨hfill, hsubstituted, fun heq => ?_⟩
  rw [hfill, hsubstituted] at heq
  exact absurd (Except.ok.inj heq) (by decide)

end Template

end Verdict
