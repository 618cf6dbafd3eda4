import Verdict.Proofs.Introspection.Conjunction
import Verdict.Proofs.Introspection.Merge

/-!
# Proofs/Introspection/Choice — an OR gives an alternative for each of its fields

Requirements that an OR puts on one field are gathered in a list, where entries equal to earlier
ones are left out.  Equal entries come from constraints on one field with one operator and equal
values; where such constraints **agree**, a field of the OR is met exactly where one of its
constraints holds (`Alternative.any_gather`), and so is the OR (`Node.any_options`).
-/

namespace Verdict

/-! ## Entries of a field -/

/-- Constraints on one field with one operator and equal values hold alike. -/
def Constraint.Agree (k : Setting) (cs : List Constraint) : Prop :=
  ∀ c ∈ cs, ∀ c' ∈ cs, c.field = c'.field → c.operator = c'.operator →
    c.value.equal c'.value = true → c.holds k = c'.holds k

namespace Requirement

variable {k : Setting} {criterion : Value}

theorem isMet_eq_any_flat (requirement : Value) :
    isMet k criterion requirement = requirement.flat.any (entryIsMet k criterion) := by
  cases requirement with
  | list mark items => rfl
  | _ => simp [isMet, Value.flat]

/-- What an entry for a field comes from: a value, or a constraint of the field. -/
def ComesFrom (cs : List Constraint) (field entry : Value) : Prop :=
  entry.isScalar = true ∨
    ∃ c ∈ cs, c.field = field ∧ entry = Alternative.requirement c c.operator

theorem ComesFrom.mono {cs cs' : List Constraint} (h : cs ⊆ cs') {field entry : Value}
    (he : ComesFrom cs field entry) : ComesFrom cs' field entry :=
  he.imp_right fun ⟨c, hc, hfield, heq⟩ => ⟨c, h hc, hfield, heq⟩

/-- Equal requirements have one operator and equal values. -/
theorem eq_of_equal {c c' : Constraint} {name : String} (hname : c.operator = .str name)
    (h : (Alternative.requirement c c.operator).equal (Alternative.requirement c' c'.operator) =
      true) : c.operator = c'.operator ∧ c.value.equal c'.value = true := by
  unfold Alternative.requirement Value.ofFields at h
  rw [Value.equal, Bool.and_eq_true, Value.equalFields_iff] at h
  obtain ⟨hnames, hfields⟩ := h
  rw [Value.sameNames, Bool.and_eq_true, List.all_eq_true, List.all_eq_true] at hnames
  constructor
  · obtain ⟨w, hw, heq⟩ := hfields _ (List.mem_cons_self ..)
    cases hw
    rw [hname] at heq ⊢
    exact (Value.equal_str_iff.mp heq).symm
  · unfold Constraint.value
    cases hv : c.value? with
    | some v =>
      obtain ⟨w, hw, heq⟩ := hfields ("value", v) (by simp [hv])
      cases hv' : c'.value? with
      | some v' =>
        rw [hv'] at hw
        cases hw
        exact heq
      | none =>
        rw [hv'] at hw
        cases hw
    | none =>
      cases hv' : c'.value? with
      | some v' =>
        have hsome := hnames.2 ("value", v') (by simp [hv'])
        rw [hv] at hsome
        cases hsome
      | none => rfl

/-- The requirement of a constraint is met where the constraint holds. -/
theorem entryIsMet_requirement {c : Constraint} {o : Operator}
    (ho : k.registry.find? c.operator = some o) (hc : c.criterion k.criteria = .ok criterion) :
    entryIsMet k criterion (Alternative.requirement c c.operator) = c.holds k := by
  have h := Constraint.isMet_requirement (k := k) (c := c) ho
  rw [Constraint.withOperator_self, Constraint.isMet_singleton_of_criterion hc] at h
  exact h

/-- **Equal entries of a field are met alike**, where the field's constraints agree. -/
theorem entryIsMet_congr {cs : List Constraint} (hsound : ∀ c ∈ cs, c.IsSound k.registry)
    (hagree : Constraint.Agree k cs) {c₀ : Constraint}
    (hcriterion : c₀.criterion k.criteria = .ok criterion) {x y : Value}
    (hx : ComesFrom cs c₀.field x) (hy : ComesFrom cs c₀.field y) (h : x.equal y = true) :
    entryIsMet k criterion x = entryIsMet k criterion y := by
  have hof : ∀ c ∈ cs, c.field = c₀.field →
      entryIsMet k criterion (Alternative.requirement c c.operator) = c.holds k :=
    fun c hc hfield => by
      obtain ⟨name, o, hname, ho⟩ := (hsound c hc).operator
      refine entryIsMet_requirement (hname ▸ ho) ?_
      rw [← hcriterion, Constraint.criterion, Constraint.criterion, hfield]
  rcases hx with hx | ⟨c, hc, hfield, rfl⟩
  · have hy : y.isScalar = true := Value.isScalar_of_equal hx h
    rw [entryIsMet_of_isScalar hx, entryIsMet_of_isScalar hy, Value.equal_congr_of_isScalar hx h]
  · rcases hy with hy | ⟨c', hc', hfield', rfl⟩
    · rw [← Value.equal_comm_of_isScalar hy] at h
      exact absurd (Value.isScalar_of_equal hy h) (by simp [Alternative.requirement, Value.ofFields,
        Value.isScalar])
    · obtain ⟨name, _, hname, _⟩ := (hsound c hc).operator
      obtain ⟨hoperator, hvalue⟩ := eq_of_equal hname h
      rw [hof c hc hfield, hof c' hc' hfield']
      exact hagree c hc c' hc' (hfield.trans hfield'.symm) hoperator hvalue

end Requirement

/-! ## Gathering under an OR -/

namespace Constraint

variable {now : DateTime} {criteria : Value}

/-- What a constraint adds to a field with requirements is met where the constraint holds. -/
theorem isMet_addition {c : Constraint} (hsound : c.IsSound (.builtIn now))
    (hliteral : c.IsLiteral) :
    Alternative.isMet ⟨.builtIn now, criteria⟩ [(c.field, Alternative.addition c c.operator)] =
      c.holds ⟨.builtIn now, criteria⟩ := by
  obtain ⟨name, o, hname, ho⟩ := hsound.operator
  by_cases hequals : name = "equals"
  · subst hequals
    rw [hname, Alternative.addition, isMet_equals hliteral.value (hliteral.equality (.inl hname)),
      ← hname, withOperator_self]
  · have haddition : Alternative.addition c c.operator = Alternative.requirement c c.operator := by
      rw [hname]
      unfold Alternative.addition
      split
      · next heq => exact absurd (Value.str.inj heq) hequals
      · rfl
    rw [haddition]
    exact (isMet_requirement (k := ⟨.builtIn now, criteria⟩) (hname ▸ ho)).trans
      (by rw [withOperator_self])

theorem criterion_of_judge {k : Setting} {c : Constraint} {r : Report} (h : c.judge k = .ok r) :
    ∃ criterion, c.criterion k.criteria = .ok criterion := by
  obtain ⟨criterion, hcriterion, _⟩ := Except.bind_eq_ok_iff.mp h
  exact ⟨criterion, hcriterion⟩

/-- The requirement of a constraint comes from it. -/
theorem comesFrom_requirement (c : Constraint) :
    ∀ entry ∈ (Alternative.requirement c c.operator).flat,
      Requirement.ComesFrom [c] c.field entry :=
  List.forall_mem_singleton.mpr (.inr ⟨c, List.mem_singleton.mpr rfl, rfl, rfl⟩)

theorem flat_of_isScalar {v : Value} (h : v.isScalar = true) : v.flat = [v] := by
  cases v with
  | list mark items => cases h
  | _ => rfl

/-- What a constraint adds to a field comes from it. -/
theorem comesFrom_addition {c : Constraint} (hliteral : c.IsLiteral) :
    ∀ entry ∈ (Alternative.addition c c.operator).flat,
      Requirement.ComesFrom [c] c.field entry := by
  unfold Alternative.addition
  split
  · next hname =>
    have hscalar := hliteral.equality (.inl hname)
    rw [flat_of_isScalar hscalar]
    exact List.forall_mem_singleton.mpr (.inl hscalar)
  · exact comesFrom_requirement c

/-- What a constraint requires of a field without requirements comes from it. -/
theorem comesFrom_entry {r : Registry} {c : Constraint} (hsound : c.IsSound r)
    (hliteral : c.IsLiteral) :
    ∀ entry ∈ (Alternative.entry c c.operator).flat, Requirement.ComesFrom [c] c.field entry := by
  obtain ⟨name, o, hname, ho⟩ := hsound.operator
  by_cases hplain : Operator.plainOperators.contains name = true
  · have hentry : Alternative.entry c c.operator = c.value := by
      rw [hname, Alternative.entry, if_pos hplain]
    rw [hentry]
    simp only [Operator.plainOperators, List.contains_iff_mem, List.mem_cons, List.not_mem_nil,
      or_false] at hplain
    rcases hplain with rfl | rfl
    · have hscalar := hliteral.equality (.inl hname)
      rw [flat_of_isScalar hscalar]
      exact List.forall_mem_singleton.mpr (.inl hscalar)
    · obtain ⟨mark, items, hvalue⟩ := hsound.list "in" (by simp [Operator.listOperators]) hname
      rw [hvalue]
      exact fun v hv => .inl (hliteral.membership (.inl hname) mark items hvalue v hv)
  · have hentry : Alternative.entry c c.operator = Alternative.requirement c c.operator := by
      rw [hname, Alternative.entry, if_neg hplain]
    rw [hentry]
    exact comesFrom_requirement c

end Constraint

namespace Alternative

/-- What the constraints of an OR have gathered: a table, whose entries come from them, and of which
some field is met where one of them holds. -/
structure Gathers (k : Setting) (cs : List Constraint) (a : Alternative) : Prop where
  isTable : a.IsTable
  comesFrom : ∀ e ∈ a, ∀ entry ∈ e.2.flat, Requirement.ComesFrom cs e.1 entry
  any : (a.any fun e => isMet k [e]) = cs.any (Constraint.holds k)

theorem gathers_nil (k : Setting) : Gathers k [] [] := ⟨isTable_nil, by simp, rfl⟩

variable {k : Setting}

/-- A list of requirements is met where one of them is, as long as equal entries are met alike. -/
theorem isMet_dedupFlatten {cs : List Constraint} (hsound : ∀ c ∈ cs, c.IsSound k.registry)
    (hagree : Constraint.Agree k cs) {c : Constraint} {criterion : Value}
    (hcriterion : c.criterion k.criteria = .ok criterion) {known added : Value}
    (hknown : ∀ entry ∈ known.flat, Requirement.ComesFrom cs c.field entry)
    (hadded : ∀ entry ∈ added.flat, Requirement.ComesFrom cs c.field entry) :
    isMet k [(c.field, .ofItems (dedupFlatten [known, added]))] =
      (isMet k [(c.field, known)] || isMet k [(c.field, added)]) := by
  have hfrom : ∀ x ∈ known.flat ++ added.flat, Requirement.ComesFrom cs c.field x :=
    List.forall_mem_append.mpr ⟨hknown, hadded⟩
  simp only [Constraint.isMet_singleton_of_criterion hcriterion, Requirement.isMet_eq_any_flat]
  exact Value.any_dedupFlatten_pair fun x hx y hy h =>
    Requirement.entryIsMet_congr hsound hagree hcriterion (hfrom x hx) (hfrom y hy) h

/-- **One more constraint is gathered**, in the list of its field or as a new field. -/
theorem Gathers.gatherOne {cs : List Constraint} {a : Alternative} (h : Gathers k cs a)
    {c : Constraint} (hsound : ∀ c' ∈ cs ++ [c], c'.IsSound k.registry) (hliteral : c.IsLiteral)
    (hagree : Constraint.Agree k (cs ++ [c])) (hjudged : ∃ r, c.judge k = .ok r)
    (hentry : isMet k [(c.field, entry c c.operator)] = c.holds k)
    (haddition : isMet k [(c.field, addition c c.operator)] = c.holds k) :
    Gathers k (cs ++ [c]) (gatherOne k.registry false a c) := by
  have hc : c.IsSound k.registry := hsound c (by simp)
  have hold : ∀ e ∈ a, ∀ entry ∈ e.2.flat, Requirement.ComesFrom (cs ++ [c]) e.1 entry :=
    fun e he entry hentry => (h.comesFrom e he entry hentry).mono (List.subset_append_left _ _)
  have hnew : ∀ {entry}, Requirement.ComesFrom [c] c.field entry →
      Requirement.ComesFrom (cs ++ [c]) c.field entry :=
    fun hentry => hentry.mono (List.subset_append_right _ _)
  have hany : (cs ++ [c]).any (Constraint.holds k) =
      ((a.any fun e => isMet k [e]) || c.holds k) := by
    rw [List.any_append, h.any, List.any_cons, List.any_nil, Bool.or_false]
  have htable : (Alternative.gatherOne k.registry false a c).IsTable := h.isTable.gatherOne hc.field
  have heffective : k.registry.effective false c.operator = c.operator := rfl
  cases hfind : a.find? c.field with
  | none =>
    have hgather : Alternative.gatherOne k.registry false a c =
        a ++ [(c.field, entry c c.operator)] := by
      simp only [Alternative.gatherOne, hfind, heffective]
    refine ⟨htable, ?_, ?_⟩
    · rw [hgather]
      refine List.forall_mem_append.mpr ⟨hold, List.forall_mem_singleton.mpr fun e he => ?_⟩
      exact hnew (Constraint.comesFrom_entry hc hliteral e he)
    · rw [hgather, hany, List.any_append, List.any_cons, List.any_nil, Bool.or_false, hentry]
  | some known =>
    -- the requirement grows where it stands; an entry that is left out is met like its equal
    obtain ⟨pre, post, ha, hput⟩ := exists_split_of_find? h.isTable.named hfind
    have hgather : Alternative.gatherOne k.registry false a c =
        pre ++ (c.field, .ofItems (dedupFlatten [known, addition c c.operator])) :: post := by
      simp only [Alternative.gatherOne, hfind, heffective, hput]
    rw [ha, List.forall_mem_append, List.forall_mem_cons] at hold
    obtain ⟨hpre, hknown, hpost⟩ := hold
    have hadded : ∀ entry ∈ (addition c c.operator).flat,
        Requirement.ComesFrom (cs ++ [c]) c.field entry :=
      fun entry he => hnew (Constraint.comesFrom_addition hliteral entry he)
    obtain ⟨r, hr⟩ := hjudged
    obtain ⟨criterion, hcriterion⟩ := Constraint.criterion_of_judge hr
    refine ⟨htable, ?_, ?_⟩
    · rw [hgather]
      refine List.forall_mem_append.mpr ⟨hpre, List.forall_mem_cons.mpr ⟨fun entry he => ?_, hpost⟩⟩
      exact List.forall_mem_append.mpr ⟨hknown, hadded⟩ entry
        (Value.dedupFlatten_pair_subset _ _ he)
    · rw [hgather, hany, ha]
      simp only [List.any_append, List.any_cons]
      rw [isMet_dedupFlatten hsound hagree hcriterion hknown hadded, haddition, Bool.or_right_comm,
        Bool.or_assoc, Bool.or_assoc, Bool.or_assoc]

end Alternative

/-- Fewer constraints agree, too. -/
theorem Constraint.Agree.mono {k : Setting} {cs cs' : List Constraint} (h : Constraint.Agree k cs')
    (hsubset : cs ⊆ cs') : Constraint.Agree k cs := fun c hc c' hc' =>
  h c (hsubset hc) c' (hsubset hc')

namespace Alternative

variable {now : DateTime} {criteria : Value}

/-- Constraints are gathered behind earlier ones, one after another. -/
theorem Gathers.foldl {cs earlier : List Constraint} {a : Alternative}
    (h : Gathers ⟨.builtIn now, criteria⟩ earlier a)
    (hsound : ∀ c ∈ earlier ++ cs, c.IsSound (.builtIn now)) (hliteral : ∀ c ∈ cs, c.IsLiteral)
    (hagree : Constraint.Agree ⟨.builtIn now, criteria⟩ (earlier ++ cs))
    (hjudged : ∀ c ∈ cs, ∃ r, c.judge ⟨.builtIn now, criteria⟩ = .ok r) :
    Gathers ⟨.builtIn now, criteria⟩ (earlier ++ cs)
      (cs.foldl (Alternative.gatherOne (.builtIn now) false) a) := by
  induction cs generalizing earlier a with
  | nil => rwa [List.append_nil]
  | cons c rest ih =>
    obtain ⟨hc, hrest⟩ := List.forall_mem_cons.mp hliteral
    obtain ⟨hjudge, hjudges⟩ := List.forall_mem_cons.mp hjudged
    have hassoc : earlier ++ c :: rest = earlier ++ [c] ++ rest := List.append_cons earlier c rest
    rw [hassoc] at hsound hagree ⊢
    have hsoundc := hsound c (by simp)
    have hentry : isMet ⟨.builtIn now, criteria⟩ [(c.field, entry c c.operator)] =
        c.holds ⟨.builtIn now, criteria⟩ := by
      have h : isMet ⟨.builtIn now, criteria⟩
          [(c.field, entry c ((Registry.builtIn now).effective false c.operator))] =
            (c.holds ⟨.builtIn now, criteria⟩ != false) :=
        Constraint.isMet_entry hsoundc hc nofun hjudge
      rwa [Bool.bne_false] at h
    have hone : Gathers ⟨.builtIn now, criteria⟩ (earlier ++ [c])
        (Alternative.gatherOne (.builtIn now) false a c) :=
      h.gatherOne (fun c' hc' => hsound c' (List.mem_append_left _ hc')) hc
        (hagree.mono (List.subset_append_left _ _)) hjudge hentry
        (Constraint.isMet_addition hsoundc hc)
    exact ih hone hsound hrest hagree hjudges

/-- **Some field that an OR gathers is met exactly where one of its constraints holds.** -/
theorem any_gather {nodes : List Node} (hsound : ∀ n ∈ nodes, n.IsSound (.builtIn now))
    (hliteral : ∀ c ∈ Node.directs nodes, c.IsLiteral)
    (hagree : Constraint.Agree ⟨.builtIn now, criteria⟩ (Node.directs nodes))
    (hjudged : ∀ c ∈ Node.directs nodes, ∃ r, c.judge ⟨.builtIn now, criteria⟩ = .ok r) :
    ((gather (.builtIn now) false nodes []).any fun e => isMet ⟨.builtIn now, criteria⟩ [e]) =
      (Node.directs nodes).any (Constraint.holds ⟨.builtIn now, criteria⟩) := by
  have hdirects : ∀ c ∈ Node.directs nodes, c.IsSound (.builtIn now) := fun c hc =>
    Node.IsSound.of_mem_constraintsOf hsound c (Node.directs_subset nodes hc)
  rw [gather_eq_foldl]
  exact ((gathers_nil _).foldl hdirects hliteral hagree hjudged).any

end Alternative

/-! ## Roots -/

namespace Node

/-- An AND of conjuncts, or an OR of such ANDs and of constraints. -/
inductive IsDisjunctive : Node → Prop
  | conjunctive {n : Node} : n.IsConjunctive → IsDisjunctive n
  | or {nodes : List Node} {outcome : Option Outcome} :
      (∀ n ∈ nodes, n.isConstraint = true ∨ n.IsConjunctive) →
        IsDisjunctive (.condition .or nodes outcome)

/-- The alternatives that a root adds. -/
def options (r : Registry) : Node → List Alternative
  | .condition .or nodes _ =>
    (Alternative.gather r false nodes []).map (fun e => [e]) ++
      (nested nodes).map (literals r false)
  | n => [n.literals r false]

/-- An AND of conjuncts has the alternative of its literals. -/
theorem IsConjunctive.options {n : Node} (h : n.IsConjunctive) (r : Registry) :
    n.options r = [n.literals r false] := by
  cases n with
  | condition b nodes outcome =>
    obtain rfl : b = .and := Option.some.inj h.isAnd
    rfl
  | constraint c => rfl
  | invalid raw => rfl

variable {r : Registry}

/-- Directly under an OR at the root each AND of conjuncts adds its alternative. -/
theorem alternatives_growAll_or {nodes : List Node}
    (h : ∀ n ∈ nodes, n.isConstraint = true ∨ n.IsConjunctive) (hsound : ∀ n ∈ nodes, n.IsSound r)
    (g : Growth) : (growAll r (some .or) 1 false nodes g).alternatives =
      g.alternatives ++ (nested nodes).map (literals r false) := by
  induction nodes generalizing g with
  | nil =>
    rw [growAll]
    exact (List.append_nil _).symm
  | cons n rest ih =>
    obtain ⟨hn, hrest⟩ := List.forall_mem_cons.mp h
    obtain ⟨hsoundn, hsoundrest⟩ := List.forall_mem_cons.mp hsound
    rw [growAll, ih hrest hsoundrest]
    cases n with
    | constraint c =>
      rw [grow]
      rfl
    | invalid raw => cases hsoundn
    | condition b nodes outcome =>
      have hconjunctive := hn.resolve_left (by simp [isConstraint])
      rw [alternatives_grow_conjunctive hconjunctive hsoundn rfl (fun _ => Nat.le_refl 1),
        nested_condition_cons, List.map_cons, List.append_assoc]
      rfl

/-- **A root adds its options behind the alternatives of earlier roots.** -/
theorem alternatives_grow_root {n : Node} (h : n.IsDisjunctive) (hsound : n.IsSound r)
    (g : Growth) :
    (n.grow r none 0 false g).alternatives = g.alternatives ++ n.options r := by
  cases h with
  | conjunctive hn =>
    have hfork : Growth.isFork .and none = true := rfl
    rw [hn.options, alternatives_grow_conjunctive hn hsound hfork nofun]
  | @or nodes outcome hnodes =>
    have hsounds : ∀ n ∈ nodes, n.IsSound r := by cases hsound with | condition h => exact h
    rw [grow, options, ← List.append_assoc, ← Growth.alternatives_attachTable_root 0]
    exact alternatives_growAll_or hnodes hsounds _

/-- **The alternatives of an outcome are the options of its roots.** -/
theorem alternatives_growAll_roots {roots : List Node} (h : ∀ n ∈ roots, n.IsDisjunctive)
    (hsound : ∀ n ∈ roots, n.IsSound r) (g : Growth) :
    (growAll r none 0 false roots g).alternatives =
      g.alternatives ++ roots.flatMap (options r) := by
  induction roots generalizing g with
  | nil =>
    rw [growAll]
    exact (List.append_nil _).symm
  | cons n rest ih =>
    obtain ⟨hn, hrest⟩ := List.forall_mem_cons.mp h
    obtain ⟨hsoundn, hsoundrest⟩ := List.forall_mem_cons.mp hsound
    rw [growAll, ih hrest hsoundrest, alternatives_grow_root hn hsoundn, List.append_assoc]
    rfl

/-! ## Options mean what the root means -/

/-- Under an OR, constraints on one field with one operator and equal values hold alike. -/
def Agree (k : Setting) : Node → Prop
  | .condition .or nodes _ => Constraint.Agree k (directs nodes)
  | _ => True

variable {now : DateTime} {criteria : Value}

/-- **Some option of a root is met exactly where the root holds.** -/
theorem any_options {n : Node} (h : n.IsDisjunctive) (hsound : n.IsSound (.builtIn now))
    (hliteral : ∀ c ∈ n.constraints, c.IsLiteral)
    (hnegatable : ∀ p ∈ n.polarities false, p.1 = true → p.2.IsNegatable now)
    (hjudged : ∀ c ∈ n.constraints, ∃ r, c.judge ⟨.builtIn now, criteria⟩ = .ok r)
    (hagree : n.Agree ⟨.builtIn now, criteria⟩) :
    (n.options (.builtIn now)).any (Alternative.isMet ⟨.builtIn now, criteria⟩) =
      n.meaning (Constraint.holds ⟨.builtIn now, criteria⟩) := by
  have hfaithful : n.IsFaithful ⟨.builtIn now, criteria⟩ false :=
    isFaithful_of_isSound hsound hliteral hnegatable hjudged
  cases h with
  | conjunctive hn =>
    have hcondition : n.isCondition = true := by rw [isCondition, hn.isAnd]; rfl
    rw [hn.options, List.any_cons, List.any_nil, Bool.or_false]
    exact isMet_literals hn.isConjunct hcondition hfaithful
  | @or nodes outcome hnodes =>
    have hsounds : ∀ n ∈ nodes, n.IsSound (.builtIn now) := by
      cases hsound with | condition h => exact h
    rw [constraints] at hliteral hjudged
    have hgather := Alternative.any_gather hsounds
      (fun c hc => hliteral c (directs_subset nodes hc)) hagree
      fun c hc => hjudged c (directs_subset nodes hc)
    have hnested : ((nested nodes).any fun n =>
        Alternative.isMet ⟨.builtIn now, criteria⟩ (n.literals (.builtIn now) false)) =
        (nested nodes).any (meaning (Constraint.holds ⟨.builtIn now, criteria⟩)) := by
      rw [Bool.eq_iff_iff, List.any_eq_true, List.any_eq_true]
      refine exists_congr fun m => and_congr_right fun hm => ?_
      obtain ⟨hmem, hcondition⟩ := List.mem_filter.mp hm
      have hconjunctive := (hnodes m hmem).resolve_left fun hconstraint => by
        cases m <;> cases hconstraint
        cases hcondition
      rw [isMet_literals (k := ⟨.builtIn now, criteria⟩) hconjunctive.isConjunct hcondition
        (hfaithful.of_mem hmem)]
    rw [options, meaning, someMean_eq, List.any_append, List.any_map, List.any_map]
    exact congr (congrArg or hgather) hnested

end Node

end Verdict
