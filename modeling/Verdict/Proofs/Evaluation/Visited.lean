import Mathlib.Data.List.Forall2
import Verdict.Introspection.Alternative
import Verdict.Proofs.Evaluation.Reach

/-!
# Proofs/Evaluation/Visited — the visits are what is reached

    reached    ([1,0], c₀)   ([1,1,0], c₁)   ([2,0], c₂)     in the order of the document
    visits      c₀ · · ·      c₁ · · ·        c₂ · · ·       with the values that are asked
    calls       c₀                            c₂             where the operator is registered

Each walk over nodes visits what is reached within its part of the positions (`Rule.Visited`); the
parts of a condition's children, and of the roots, are put together in order.  So a rule visits the
constraints that are reached and no others (`Rule.evaluate_visits_reached`).
-/

namespace Verdict

/-- A constraint with the positions at which it stands. -/
abbrev Occurrence := List Nat × Constraint

/-! ## What is asked -/

/-- A visit to a constraint: the value of its field, and the value that its operator is given where
there is one. -/
structure Visit.Asks (k : Setting) (c : Constraint) (visit : Visit) : Prop where
  constraint : visit.constraint = c
  criterion : c.criterion k.criteria = .ok visit.criterion
  registered : visit.operand.isSome = k.registry.has c.operator
  operand : ∀ value ∈ visit.operand, Constraint.operand k.criteria c.value = .ok value

/-- A call of a constraint's operator: on the value of its field, and on its own value. -/
structure Constraint.Calls (k : Setting) (c : Constraint) (call : Value × Value × Value) :
    Prop where
  operator : call.1 = c.operator
  criterion : c.criterion k.criteria = .ok call.2.1
  operand : operand k.criteria c.value = .ok call.2.2

/-- Judging a constraint visits it. -/
theorem Constraint.exists_visit_of_judge {k : Setting} {c : Constraint} {r : Report}
    (h : c.judge k = .ok r) : ∃ visit, r.visits = [visit] ∧ visit.Asks k c := by
  cases judged_of_judge h with
  | unknown hcriterion hfind _ =>
    refine ⟨_, rfl, rfl, hcriterion, ?_, fun value hvalue => nomatch hvalue⟩
    rw [Registry.has, hfind]
    rfl
  | tested hcriterion hfind hvalue _ _ =>
    refine ⟨_, rfl, rfl, hcriterion, ?_, fun value heq => ?_⟩
    · rw [Registry.has, hfind]
      rfl
    · cases heq
      exact hvalue

/-- The calls among visits are those to operators that are registered. -/
theorem Report.calls_of_asks {k : Setting} {reached : List Occurrence} {r : Report}
    (h : List.Forall₂ (fun o visit => visit.Asks k o.2) reached r.visits) :
    List.Forall₂ (fun o call => o.2.Calls k call)
      (reached.filter fun o => k.registry.has o.2.operator) r.calls := by
  unfold Report.calls
  generalize r.visits = visits at h
  induction h with
  | nil => exact .nil
  | @cons o visit reached visits hasks _ ih =>
    obtain ⟨c, criterion, operand⟩ := visit
    obtain ⟨rfl, hcriterion, hregistered, hoperand⟩ := hasks
    cases operand with
    | none =>
      rw [List.filter_cons_of_neg (by simp [← hregistered]), List.filterMap_cons_none rfl]
      exact ih
    | some value =>
      rw [List.filter_cons_of_pos (by simp [← hregistered]), List.filterMap_cons]
      exact .cons ⟨rfl, hcriterion, hoperand value rfl⟩ ih

namespace Rule

variable {k : Setting} {roots : List Node}

/-! ## The visits of a walk -/

/-- The constraints that are reached at some positions, in the order of the document, and the visits
to them. -/
structure Visited (k : Setting) (roots : List Node) (within : List Nat → Prop)
    (reached : List Occurrence) (visits : List Visit) : Prop where
  ordered : (reached.map Prod.fst).Pairwise (· < ·)
  mem_iff : ∀ path c,
    (path, c) ∈ reached ↔ Reached k roots path (.constraint c) ∧ within path
  asks : List.Forall₂ (fun o visit => visit.Asks k o.2) reached visits

namespace Visited

variable {within later : List Nat → Prop} {reached reached' : List Occurrence}
  {visits visits' : List Visit}

/-- Where nothing is reached nothing is visited. -/
theorem nil (h : ∀ path c, Reached k roots path (.constraint c) → ¬ within path) :
    Visited k roots within [] [] := by
  refine ⟨.nil, fun path c => ⟨nofun, ?_⟩, .nil⟩
  rintro ⟨hreached, hwithin⟩
  exact absurd hwithin (h path c hreached)

/-- The positions at which constraints are reached may be said in other words. -/
theorem congr (h : Visited k roots within reached visits)
    (hwithin : ∀ path c, Reached k roots path (.constraint c) → (within path ↔ later path)) :
    Visited k roots later reached visits := by
  refine ⟨h.ordered, fun path c => ?_, h.asks⟩
  rw [h.mem_iff]
  exact and_congr_right (hwithin path c)

/-- Visits one after the other. -/
theorem append (h : Visited k roots within reached visits)
    (h' : Visited k roots later reached' visits')
    (hlt : ∀ p q, within p → later q → p < q) :
    Visited k roots (fun p => within p ∨ later p) (reached ++ reached') (visits ++ visits') := by
  refine ⟨?_, fun path c => ?_, List.rel_append h.asks h'.asks⟩
  · rw [List.map_append, List.pairwise_append]
    refine ⟨h.ordered, h'.ordered, fun p hp q hq => ?_⟩
    obtain ⟨⟨_, c⟩, ho, rfl⟩ := List.mem_map.mp hp
    obtain ⟨⟨_, c'⟩, ho', rfl⟩ := List.mem_map.mp hq
    exact hlt _ _ ((h.mem_iff _ _).mp ho).2 ((h'.mem_iff _ _).mp ho').2
  · rw [List.mem_append, h.mem_iff, h'.mem_iff, and_or_left]

/-- The visits below a child and those below the later ones. -/
theorem children {path : List Nat} {i : Nat}
    (h : Visited k roots (path ++ [i] <+: ·) reached visits)
    (h' : Visited k roots (Under path (i + 1)) reached' visits') :
    Visited k roots (Under path i) (reached ++ reached') (visits ++ visits') :=
  (h.append h' fun _ _ => lt_of_under).congr fun _ _ _ => under_iff.symm

/-- A child that is no condition and no constraint has no visits. -/
theorem of_invalid {path : List Nat} {raw : Value} (h : Reached k roots path (.invalid raw)) :
    Visited k roots (path <+: ·) [] [] := by
  refine .nil fun p c hreached habove => ?_
  obtain rfl := hreached.eq_of_prefix h rfl habove
  cases hreached.unique h

/-- A constraint that is reached is visited, and nothing below it. -/
theorem of_constraint {path : List Nat} {c : Constraint} {visit : Visit}
    (h : Reached k roots path (.constraint c)) (hvisit : visit.Asks k c) :
    Visited k roots (path <+: ·) [(path, c)] [visit] := by
  refine ⟨List.pairwise_singleton .., fun p c' => ?_, .cons hvisit .nil⟩
  simp only [List.mem_singleton, Prod.mk.injEq]
  constructor
  · rintro ⟨rfl, rfl⟩
    exact ⟨h, List.prefix_refl _⟩
  · rintro ⟨hreached, habove⟩
    obtain rfl := hreached.eq_of_prefix h rfl habove
    cases hreached.unique h
    exact ⟨rfl, rfl⟩

/-- The constraints below a condition are below its children. -/
theorem of_children {path : List Nat} {b : Branch} {nodes : List Node} {outcome : Option Outcome}
    (h : Reached k roots path (.condition b nodes outcome))
    (hvisited : Visited k roots (Under path 0) reached visits) :
    Visited k roots (path <+: ·) reached visits := by
  refine hvisited.congr fun p c hreached => ⟨fun ⟨j, _, hj⟩ => ?_, fun ⟨below, hbelow⟩ => ?_⟩
  · exact (List.prefix_append path [j]).trans hj
  · subst hbelow
    cases below with
    | nil =>
      rw [List.append_nil] at hreached
      cases hreached.unique h
    | cons j below => exact ⟨j, Nat.zero_le j, below, by simp⟩

/-- Behind the last child nothing is reached. -/
theorem of_last {path : List Nat} {b : Branch} {nodes : List Node} {outcome : Option Outcome}
    (h : Reached k roots path (.condition b nodes outcome)) :
    Visited k roots (Under path nodes.length) [] [] := by
  refine .nil fun p c hreached ⟨j, hij, habove⟩ => ?_
  obtain ⟨child, hchild⟩ := hreached.of_prefix habove (by simp)
  obtain ⟨b', nodes', outcome', hparent, hnode, _⟩ := (Reached.child_iff h.ne_nil).mp hchild
  cases h.unique hparent
  rw [List.getElem?_eq_none hij] at hnode
  cases hnode

/-- Behind a child that stops its condition nothing is reached. -/
theorem of_stopped {path : List Nat} {b : Branch} {nodes : List Node} {outcome : Option Outcome}
    (h : Reached k roots path (.condition b nodes outcome)) {i : Nat} {n : Node}
    (hn : nodes[i]? = some n) (hstops : n.Stops k b) :
    Visited k roots (Under path (i + 1)) [] [] := by
  refine .nil fun p c hreached ⟨j, hij, habove⟩ => ?_
  obtain ⟨child, hchild⟩ := hreached.of_prefix habove (by simp)
  obtain ⟨b', nodes', outcome', hparent, _, hbefore⟩ := (Reached.child_iff h.ne_nil).mp hchild
  cases h.unique hparent
  exact hbefore n (List.mem_of_getElem? (List.getElem?_take_of_lt (by omega) |>.trans hn)) hstops

end Visited

mutual

/-- A node that is reached visits the constraints that are reached from it down. -/
theorem visited_of_report : ∀ (n : Node) {path : List Nat} {r : Report},
    Reached k roots path n → n.report? k = some (.ok r) →
    ∃ reached, Visited k roots (path <+: ·) reached r.visits
  | .condition b nodes outcome, path, r, h, hr => by
    have hjudge : (Node.condition b nodes outcome).judge k = .ok r := Option.some.inj hr
    rw [Node.judge] at hjudge
    obtain ⟨reached, visits, hvisits, hvisited⟩ :=
      visited_of_judgeNodes h [] nodes rfl (List.forall_mem_nil _) hjudge
    rw [Report.ofJudgement, List.nil_append] at hvisits
    rw [hvisits]
    exact ⟨reached, .of_children h hvisited⟩
  | .constraint c, path, r, h, hr => by
    obtain ⟨visit, hvisit, hasks⟩ := Constraint.exists_visit_of_judge (Option.some.inj hr)
    rw [hvisit]
    exact ⟨_, .of_constraint h hasks⟩
  | .invalid _, _, _, _, hr => nomatch hr

/-- So do the nodes of a condition behind some that did not stop it. -/
theorem visited_of_judgeNodes {path : List Nat} {b : Branch} {nodes : List Node}
    {outcome : Option Outcome} (h : Reached k roots path (.condition b nodes outcome)) :
    ∀ (before rest : List Node), nodes = before ++ rest → (∀ m ∈ before, ¬ m.Stops k b) →
    ∀ {sofar r : Report}, Node.judgeNodes k b outcome sofar rest = .ok r →
    ∃ reached visits, r.visits = sofar.visits ++ visits ∧
      Visited k roots (Under path before.length) reached visits
  | before, [], hnodes, _, sofar, r, hr => by
    rw [Node.judgeNodes] at hr
    cases hr
    rw [List.append_nil] at hnodes
    subst hnodes
    exact ⟨[], [], (List.append_nil _).symm, .of_last h⟩
  | before, n :: rest, hnodes, hbefore, sofar, r, hr => by
    have hchild := h.next hnodes hbefore
    have hgoesOn : ∀ {next}, ¬ n.Stops k b → Node.judgeNodes k b outcome next rest = .ok r →
        ∃ reached visits, r.visits = next.visits ++ visits ∧
          Visited k roots (Under path (before.length + 1)) reached visits := by
      intro next hn hrest
      have hlater := visited_of_judgeNodes h (before ++ [n]) rest (by simp [hnodes])
        (List.forall_mem_append.mpr ⟨hbefore, List.forall_mem_singleton.mpr hn⟩) hrest
      rwa [List.length_append] at hlater
    rcases Node.step_of_judgeNodes_ok hr with ⟨hn, hrest⟩ | ⟨rn, hn, hstep⟩
    · obtain ⟨raw, rfl⟩ := Node.report?_eq_none_iff.mp hn
      obtain ⟨reached, visits, hvisits, hvisited⟩ := hgoesOn Node.not_stops_invalid hrest
      exact ⟨reached, visits, hvisits, (Visited.of_invalid hchild).children hvisited⟩
    · obtain ⟨first, hfirst⟩ := visited_of_report n hchild hn
      have hlater : ∃ reached visits, r.visits = (sofar.visits ++ rn.visits) ++ visits ∧
          Visited k roots (Under path (before.length + 1)) reached visits := by
        rcases hstep with ⟨hstop, rfl⟩ | ⟨hstop, hrest⟩
        · exact ⟨[], [], (List.append_nil _).symm,
            .of_stopped h (by simp [hnodes]) ((Node.stops_iff hn).mpr hstop)⟩
        · exact hgoesOn (by simp [Node.stops_iff hn, hstop]) hrest
      obtain ⟨reached, visits, hvisits, hvisited⟩ := hlater
      rw [List.append_assoc] at hvisits
      exact ⟨_, _, hvisits, hfirst.children hvisited⟩

end

/-! ## The visits of a rule -/

/-- A root visits the constraints that are reached below it, and is no constraint itself: one that
stands in the place of a root is judged as no condition. -/
theorem visited_of_root {i : Nat} {n : Node} {r : Report} (h : Reached k roots [i] n)
    (hr : n.judge k = .ok r) :
    ∃ reached, Visited k roots (fun p => [i] <+: p ∧ 1 < p.length) reached r.visits := by
  cases hn : n.isCondition with
  | true =>
    obtain ⟨reached, hvisited⟩ :=
      visited_of_report n h ((Node.report?_of_isCondition hn).trans (congrArg some hr))
    refine ⟨reached, hvisited.congr fun p c hreached => ⟨fun habove => ⟨habove, ?_⟩, And.left⟩⟩
    by_contra hlength
    obtain rfl := habove.eq_of_length_le (by simpa using hlength)
    cases hreached.unique h
    cases hn
  | false =>
    rw [Node.judge_of_not_isCondition hn] at hr
    cases hr
    refine ⟨[], .nil fun p c hreached ⟨habove, hlength⟩ => ?_⟩
    rw [hreached.eq_of_prefix h hn habove] at hlength
    exact absurd hlength (Nat.lt_irrefl 1)

namespace Visited

variable {reached reached' : List Occurrence} {visits visits' : List Visit}

/-- The visits below a root and those below the later ones. -/
theorem roots_from {i : Nat}
    (h : Visited k roots (fun p => [i] <+: p ∧ 1 < p.length) reached visits)
    (h' : Visited k roots (fun p => Under [] (i + 1) p ∧ 1 < p.length) reached' visits') :
    Visited k roots (fun p => Under [] i p ∧ 1 < p.length) (reached ++ reached')
      (visits ++ visits') := by
  refine (h.append h' fun _ _ hp hq => lt_of_under hp.1 hq.1).congr fun p _ _ => ?_
  rw [under_iff (i := i), or_and_right, List.nil_append]

/-- Behind the last root nothing is reached. -/
theorem of_last_root :
    Visited k roots (fun p => Under [] roots.length p ∧ 1 < p.length) [] [] := by
  refine .nil fun p c hreached ⟨⟨j, hij, habove⟩, _⟩ => ?_
  obtain ⟨m, hm⟩ := hreached.of_prefix habove (by simp)
  have hroot := (Reached.root_iff.mp hm).1
  rw [List.getElem?_eq_none hij] at hroot
  cases hroot

/-- Behind a root that does not let the walk go on nothing is reached. -/
theorem of_decided {i : Nat} {n : Node} (hn : roots[i]? = some n) (hdecides : ¬ n.GoesOn k) :
    Visited k roots (fun p => Under [] (i + 1) p ∧ 1 < p.length) [] [] := by
  refine .nil fun p c hreached ⟨⟨j, hij, habove⟩, _⟩ => ?_
  obtain ⟨m, hm⟩ := hreached.of_prefix habove (by simp)
  have hmem := List.mem_of_getElem? ((List.getElem?_take_of_lt (by omega : i < j)).trans hn)
  exact hdecides ((Reached.root_iff.mp hm).2 n hmem)

end Visited

/-- Roots behind some that let the walk go on visit what is reached below them. -/
theorem visited_of_judgeRoots {default : Option Outcome} : ∀ (before rest : List Node),
    roots = before ++ rest → (∀ m ∈ before, m.GoesOn k) →
    ∀ {r : Report}, judgeRoots k default rest = .ok r → ∃ reached,
      Visited k roots (fun p => Under [] before.length p ∧ 1 < p.length) reached r.visits
  | before, [], hroots, _, r, hr => by
    rw [judgeRoots] at hr
    obtain ⟨j, _, rfl⟩ := Except.map_eq_ok_iff.mp hr
    rw [List.append_nil] at hroots
    subst hroots
    exact ⟨[], .of_last_root⟩
  | before, n :: rest, hroots, hbefore, r, hr => by
    obtain ⟨rn, hrn, hstep⟩ := step_of_judgeRoots_ok hr
    have hn : roots[before.length]? = some n := by simp [hroots]
    have hroot : Reached k roots [before.length] n := .root hn (by rwa [hroots, List.take_left])
    obtain ⟨first, hfirst⟩ := visited_of_root hroot hrn
    have hdecided : ¬ n.GoesOn k → ∃ reached, Visited k roots
        (fun p => Under [] before.length p ∧ 1 < p.length) reached rn.visits := by
      intro hdecides
      have hlast := hfirst.roots_from (.of_decided hn hdecides)
      rw [List.append_nil rn.visits] at hlast
      exact ⟨_, hlast⟩
    rcases hstep with ⟨hpassed, j, _, rfl⟩ | ⟨_, hmessage, rfl⟩ |
      ⟨hpassed, hmessage, later, hlater, rfl⟩
    · exact hdecided (by simp [Node.goesOn_iff hrn, hpassed])
    · exact hdecided (by simp [Node.goesOn_iff hrn, hmessage])
    · have hgoesOn : n.GoesOn k := (Node.goesOn_iff hrn).mpr ⟨hpassed, hmessage⟩
      obtain ⟨reached, hreached⟩ := visited_of_judgeRoots (before ++ [n]) rest (by simp [hroots])
        (List.forall_mem_append.mpr ⟨hbefore, List.forall_mem_singleton.mpr hgoesOn⟩) hlater
      rw [List.length_append] at hreached
      exact ⟨_, hfirst.roots_from hreached⟩

/-! ## The visits of an evaluation -/

/-- A report that visits the constraints that are reached and no others, each once and in the order
of the document, and calls the operators of those whose operator is registered. -/
def VisitsReached (k : Setting) (rule : Rule) (r : Report) : Prop :=
  ∃ reached, Visited k rule.conditions (fun path => 1 < path.length) reached r.visits ∧
    List.Forall₂ (fun o call => o.2.Calls k call)
      (reached.filter fun o => k.registry.has o.2.operator) r.calls

/-- A rule that is judged visits the constraints that are reached. -/
theorem visitsReached_of_judge {registry : Registry} {rule : Rule} {criteria : Value} {r : Report}
    (h : rule.judge registry criteria = .ok r) : rule.VisitsReached ⟨registry, criteria⟩ r := by
  obtain ⟨reached, hvisited⟩ :=
    visited_of_judgeRoots [] rule.conditions rfl (List.forall_mem_nil _) h
  refine ⟨reached, hvisited.congr fun path c hreached => and_iff_right ?_,
    r.calls_of_asks hvisited.asks⟩
  obtain ⟨i, below, rfl⟩ := List.exists_cons_of_ne_nil hreached.ne_nil
  exact ⟨i, Nat.zero_le i, below, rfl⟩

/-- **Evaluation visits exactly the constraints that are reached, once each and in the order of the
document, and calls exactly their operators, with the values of their fields and their own; or a
constraint or a message meets the limit on digits.** -/
theorem evaluate_visits_reached {registry : Registry} {rule : Rule} {criteria : Value}
    (hdecides : ∀ v ∈ criteria.flat, ∀ c ∈ rule.constraints, c.Decides ⟨registry, v⟩) :
    (∃ e, rule.evaluate registry criteria = .ok e ∧
      List.Forall₂ (fun v r => rule.VisitsReached ⟨registry, v⟩ r) criteria.flat e.reports) ∨
    ∃ f, rule.evaluate registry criteria = .error f ∧ f.isDigitLimit = true ∧
      ∃ v ∈ criteria.flat, (∃ c ∈ rule.constraints, c.judge ⟨registry, v⟩ = .error f) ∨
        ∃ o, (o = rule.default ∨ ∃ n ∈ rule.conditions, o = n.outcome?) ∧
          fillMessage v (messageOf o) = .error f := by
  rcases evaluate_cases registry rule criteria with ⟨e, he, hjudged⟩ | ⟨f, hf, v, hv, hjudge⟩
  · exact .inl ⟨e, he, hjudged.imp fun _ _ => visitsReached_of_judge⟩
  · have hwhere := exists_of_judgeRoots_error f rule.conditions hjudge
    refine .inr ⟨f, hf, ?_, v, hv, hwhere⟩
    rcases hwhere with ⟨c, hc, hcf⟩ | ⟨o, _, hof⟩
    · exact Constraint.stopsAtDigits_judge (hdecides v hv c hc) f hcf
    · exact stopsAtDigits_fillMessage _ _ f hof

/-- Two criteria: one whose first root stops within, and one that both roots are judged on. -/
theorem evaluate_visits_reached_presence :
    let presence : Operator := ⟨"exists", .existence, [.any], .ofProperty fun c => !c.isMissing⟩
    let registry := Registry.empty.insert presence
    let exists? (field : String) : Node := .constraint ⟨.str field, .str "exists", none, .null⟩
    let rule : Rule := ⟨[.condition .and [exists? "name", .condition .or [exists? "age",
      exists? "born"] none] none, .condition .none [exists? "left"] none], none⟩
    let criteria : Value :=
      .ofItems [.ofFields [("age", .int 18)], .ofFields [("name", .str "x"), ("age", .int 18)]]
    (∀ v ∈ criteria.flat, ∀ c ∈ rule.constraints, c.Decides ⟨registry, v⟩) ∧
    ((∃ e, rule.evaluate registry criteria = .ok e ∧
      List.Forall₂ (fun v r => rule.VisitsReached ⟨registry, v⟩ r) criteria.flat e.reports) ∨
    ∃ f, rule.evaluate registry criteria = .error f ∧ f.isDigitLimit = true ∧
      ∃ v ∈ criteria.flat, (∃ c ∈ rule.constraints, c.judge ⟨registry, v⟩ = .error f) ∨
        ∃ o, (o = rule.default ∨ ∃ n ∈ rule.conditions, o = n.outcome?) ∧
          fillMessage v (messageOf o) = .error f) := by
  intro presence registry exists? rule criteria
  have hdecides : ∀ v ∈ criteria.flat, ∀ c ∈ rule.constraints, c.Decides ⟨registry, v⟩ :=
    fun v _ c _ => Constraint.decides_of_only (fun _ _ => ⟨_, rfl⟩) v c
  exact ⟨hdecides, evaluate_visits_reached hdecides⟩

/-- Under NONE no sibling stops, but behind a constraint whose index has more digits than can be
read nothing is visited. -/
theorem evaluate_stops_before_reached :
    let presence : Operator := ⟨"exists", .existence, [.any], .ofProperty fun c => !c.isMissing⟩
    let registry := Registry.empty.insert presence
    let long : Constraint :=
      ⟨.str (String.ofList (Segment.longIndex 4301)), .str "exists", none, .null⟩
    let later : Constraint := ⟨.str "b", .str "exists", none, .null⟩
    let rule : Rule := ⟨[.condition .none [.constraint long, .constraint later] none], none⟩
    let k : Setting := ⟨registry, .ofFields []⟩
    (∀ c ∈ rule.constraints, c.Decides k) ∧
    Reached k rule.conditions [0, 1] (.constraint later) ∧
    rule.evaluate registry k.criteria = .error (.numeralTooLong 4301) := by
  intro presence registry long later rule k
  have hlong : maxIntegerDigits < 4301 := by decide
  refine ⟨fun c _ => Constraint.decides_of_only (fun _ _ => ⟨_, rfl⟩) _ c, ?_, ?_⟩
  · exact .child (.root (i := 0) rfl (List.forall_mem_nil _)) rfl fun m _ => nofun
  · have hjudge : long.judge k = .error (.numeralTooLong 4301) :=
      Constraint.judge_longIndex hlong rfl rfl
    rw [evaluate_eq_judge rfl, judge, judgeRoots, Node.judge, Node.judgeNodes, hjudge]
    rfl

end Rule

end Verdict
