import GraphQuery.Plan.Compile
import GraphQuery.Proofs.OneArena
import Mathlib.Data.List.Forall2

/-!
# The parameters that a plan uses

Which parameters the statements of a plan use, and in which order they come in the text, can be read
off the plan without compiling it. A projection is compiled before its target and the point of a
distance before its source, so the order of the text is not the order in which names are looked up.

Compiling keeps what was used. When it succeeds, the parameters that the clauses visit are, one by
one, those that the scope has under the names that the statements use; and all references that the
clauses visit come from the scope too.
-/

namespace GraphQuery.Plan

/-! ## Names of parameters in the order of the text -/

mutual

/-- Stored values are read as terms; one that is no term uses nothing. -/
def Term.usedParams (t : Term) : List String :=
  match t with
  | .param name => [name]
  | .ref _ => []
  | .property _ _ => []
  | .literal _ => []
  | .list items => Term.usedByAll items
  | .projection _ _ entries => Term.usedByStored entries
  | .coalesce _ _ fallback => fallback.usedParams
  | .distance source point => source.usedParams ++ [point]
  | .call _ argument => argument.usedParams
termination_by 2 * t.weight
decreasing_by all_goals (simp only [Term.weight]; omega)

/-- The parameters that the items use, one item after the other. -/
def Term.usedByAll (items : List Term) : List String :=
  match items with
  | [] => []
  | item :: rest => item.usedParams ++ Term.usedByAll rest
termination_by 2 * Term.weights items + 1
decreasing_by
  · simp only [Term.weights]; omega
  · have := item.weight_pos
    simp only [Term.weights]; omega

/-- The parameters that stored values use. Those that are no terms are passed over. -/
def Term.usedByStored (entries : List (String × Json)) : List String :=
  match entries with
  | [] => []
  | (_, value) :: rest =>
    match _ : Term.ofJson value with
    | .error _ => Term.usedByStored rest
    | .ok t => t.usedParams ++ Term.usedByStored rest
termination_by 2 * Json.nodesOfMembers entries + 1
decreasing_by
  · have := value.nodes_pos
    simp only [Json.nodesOfMembers]; omega
  · have := Term.weight_ofJson ‹_›
    simp only [Json.nodesOfMembers]; omega
  · have := value.nodes_pos
    simp only [Json.nodesOfMembers]; omega

end

theorem Term.usedByStored_cons {key : String} {value : Json} {rest : List (String × Json)}
    {t : Term} (ht : Term.ofJson value = .ok t) :
    Term.usedByStored ((key, value) :: rest) = t.usedParams ++ Term.usedByStored rest := by
  rw [Term.usedByStored]
  split
  · exact absurd (ht.symm.trans ‹_›) (by rintro ⟨⟩)
  · rw [Except.ok.inj (ht.symm.trans ‹_›)]

mutual

/-- The parameters that a condition uses, those of its subqueries too. -/
def Condition.usedParams : Condition → List String
  | .compare _ lhs rhs => lhs.usedParams ++ rhs.usedParams
  | .isNull expr => expr.usedParams
  | .isNotNull expr => expr.usedParams
  | .group _ operands => Condition.usedByAll operands
  | .not operand => operand.usedParams
  | .existsIn statements => Statement.usedByAll statements

/-- The parameters that the operands use, one operand after the other. -/
def Condition.usedByAll : List Condition → List String
  | [] => []
  | operand :: rest => operand.usedParams ++ Condition.usedByAll rest

/-- The parameters that a statement uses, with repetitions and in the order of the text. -/
def Statement.usedParams : Statement → List String
  | .create _ properties => Term.usedByStored properties
  | .matching _ _ none => []
  | .matching _ _ (some condition) => condition.usedParams
  | .call statements => Statement.usedByAll statements
  | .withAll => []
  | .withItems items => items.flatMap fun item => item.expr.usedParams
  | .set _ properties => Term.usedByStored properties
  | .orderBy items => items.flatMap fun item => item.expr.usedParams
  | .skip param => [param]
  | .limit param => [param]
  | .result use => (use.expr.map Term.usedParams).getD []

/-- The parameters that the statements use, one statement after the other. -/
def Statement.usedByAll : List Statement → List String
  | [] => []
  | statement :: rest => statement.usedParams ++ Statement.usedByAll rest

end

end Plan

/-- The parameters that the statements use, in the order of the text. -/
def Plan.usedParams (plan : Plan) : List String :=
  Plan.Statement.usedByAll plan.statements

namespace Plan

/-! ## Names and what they stand for -/

/-- Visits resolve names: the parameters are those that the scope has under these names, one by one,
and the references come from the scope. -/
structure Resolves (s : Scope) (names : List String) (vs : List Visit) : Prop where
  /-- Names and parameters go together in their order, repetitions included. -/
  params : List.Forall₂ (fun name p => (name, p) ∈ s.params) names (paramsOf vs)
  /-- Every reference is the one of some entity. -/
  refs : ∀ r, .ref r ∈ vs → ∃ entry ∈ s.entities, entry.2.reference = r

namespace Resolves

variable {s : Scope} {names names' : List String} {vs ws : List Visit}

theorem nil (s : Scope) : Resolves s [] [] :=
  ⟨.nil, fun _ h => absurd h List.not_mem_nil⟩

theorem append (h : Resolves s names vs) (h' : Resolves s names' ws) :
    Resolves s (names ++ names') (vs ++ ws) := by
  constructor
  · rw [paramsOf_append]
    exact List.rel_append h.params h'.params
  · intro r hr
    rcases List.mem_append.mp hr with hr | hr
    · exact h.refs r hr
    · exact h'.refs r hr

/-- One more reference, in front of the others. -/
theorem cons_ref {r : Reference} (hr : ∃ e ∈ s.entities, e.2.reference = r)
    (h : Resolves s names vs) : Resolves s names (.ref r :: vs) := by
  refine ⟨h.params, fun r' hr' => ?_⟩
  rcases List.mem_cons.mp hr' with hr' | hr'
  · obtain rfl := Visit.ref.inj hr'
    exact hr
  · exact h.refs r' hr'

theorem param {name : String} {p : Param} (h : (name, p) ∈ s.params) :
    Resolves s [name] [.param p] :=
  ⟨.cons h .nil, fun r hr => absurd hr (by simp)⟩

end Resolves

namespace Scope

variable {s : Scope} {name : String}

theorem mem_of_entity? {e : Entity} (h : s.entity? name = some e) : (name, e) ∈ s.entities := by
  obtain ⟨⟨n, e'⟩, hfind, rfl⟩ := Option.map_eq_some_iff.mp h
  have hname : n = name := by simpa using List.find?_some hfind
  exact hname ▸ List.mem_of_find?_eq_some hfind

theorem entity?_of_node {n : NodeRef} (h : s.node name = .ok n) :
    s.entity? name = some (.node n) := by
  unfold Scope.node at h
  split at h
  · obtain rfl := Except.ok.inj h
    assumption
  · cases h

theorem entity?_of_relationship {r : RelationshipRef} (h : s.relationship name = .ok r) :
    s.entity? name = some (.relationship r) := by
  unfold Scope.relationship at h
  split at h
  · obtain rfl := Except.ok.inj h
    assumption
  · cases h

theorem entity?_of_var {v : VariableRef} (h : s.var name = .ok v) :
    s.entity? name = some (.var v) := by
  unfold Scope.var at h
  split at h
  · obtain rfl := Except.ok.inj h
    assumption
  · cases h

theorem entity?_of_reference {r : Reference} (h : s.reference name = .ok r) :
    ∃ e, s.entity? name = some e ∧ e.reference = r := by
  unfold Scope.reference at h
  split at h
  · exact ⟨_, ‹_›, Except.ok.inj h⟩
  · cases h

theorem mem_of_param {p : Param} (h : s.param name = .ok p) : (name, p) ∈ s.params := by
  unfold Scope.param at h
  split at h
  · rename_i n q hfind
    obtain rfl := Except.ok.inj h
    have hname : n = name := by simpa using List.find?_some hfind
    exact hname ▸ List.mem_of_find?_eq_some hfind
  · cases h

theorem mem_of_reference {r : Reference} (h : s.reference name = .ok r) :
    ∃ e ∈ s.entities, e.2.reference = r := by
  obtain ⟨e, he, hr⟩ := entity?_of_reference h
  exact ⟨(name, e), mem_of_entity? he, hr⟩

theorem mem_of_node {n : NodeRef} (h : s.node name = .ok n) :
    ∃ e ∈ s.entities, e.2.reference = n.reference :=
  ⟨(name, .node n), mem_of_entity? (entity?_of_node h), rfl⟩

theorem mem_of_relationship {r : RelationshipRef} (h : s.relationship name = .ok r) :
    ∃ e ∈ s.entities, e.2.reference = r.reference :=
  ⟨(name, .relationship r), mem_of_entity? (entity?_of_relationship h), rfl⟩

theorem mem_of_var {v : VariableRef} (h : s.var name = .ok v) :
    ∃ e ∈ s.entities, e.2.reference = v.reference :=
  ⟨(name, .var v), mem_of_entity? (entity?_of_var h), rfl⟩

end Scope

/-! ## Terms -/

theorem fieldVisits_entries (fields : List String) (entries : List (String × Expr)) :
    Expr.fieldVisits (fields.map .shorthand
        ++ entries.map fun entry => ProjectionField.entry entry.1 entry.2)
      = Expr.entryVisits entries := by
  induction fields with
  | nil =>
    induction entries with
    | nil => rfl
    | cons entry rest ih =>
      rw [List.map_nil, List.nil_append] at ih ⊢
      rw [List.map_cons, Expr.fieldVisits, ih]
      rfl
  | cons field rest ih => exact ih

mutual

theorem compileTerm_resolves {s : Scope} (t : Term) {e : Expr} (h : compileTerm s t = .ok e) :
    Resolves s t.usedParams e.visits := by
  match t, h with
  | .param name, h =>
    rw [compileTerm] at h
    obtain ⟨p, hp, h⟩ := bind_eq_ok h
    obtain rfl := Except.ok.inj h
    rw [Term.usedParams]
    exact .param (Scope.mem_of_param hp)
  | .ref name, h =>
    rw [compileTerm] at h
    obtain ⟨r, hr, h⟩ := bind_eq_ok h
    obtain rfl := Except.ok.inj h
    rw [Term.usedParams]
    exact .cons_ref (Scope.mem_of_reference hr) (.nil s)
  | .property target key, h =>
    rw [compileTerm] at h
    obtain ⟨r, hr, h⟩ := bind_eq_ok h
    obtain rfl := Except.ok.inj h
    rw [Term.usedParams]
    exact .cons_ref (Scope.mem_of_reference hr) (.nil s)
  | .literal value, h =>
    rw [compileTerm] at h
    obtain ⟨l, _, h⟩ := bind_eq_ok h
    obtain rfl := Except.ok.inj h
    rw [Term.usedParams]
    exact .nil s
  | .list items, h =>
    rw [compileTerm] at h
    obtain ⟨es, hes, h⟩ := bind_eq_ok h
    obtain rfl := Except.ok.inj h
    rw [Term.usedParams]
    exact compileTerms_resolves items hes
  | .projection target fields entries, h =>
    rw [compileTerm] at h
    obtain ⟨es, hes, h⟩ := bind_eq_ok h
    obtain ⟨r, hr, h⟩ := bind_eq_ok h
    obtain rfl := Except.ok.inj h
    -- the target is looked up last, but written first; neither is a parameter
    rw [Term.usedParams, Expr.visits, fieldVisits_entries]
    exact .cons_ref (Scope.mem_of_reference hr) (compileStored_resolves entries hes)
  | .coalesce target key fallback, h =>
    rw [compileTerm] at h
    obtain ⟨r, hr, h⟩ := bind_eq_ok h
    obtain ⟨f, hf, h⟩ := bind_eq_ok h
    obtain rfl := Except.ok.inj h
    rw [Term.usedParams]
    exact .cons_ref (Scope.mem_of_reference hr) (compileTerm_resolves fallback hf)
  | .distance source point, h =>
    rw [Term.usedParams]
    -- a property is compiled by an equation of its own, any other source has to become a call
    by_cases hsource : ∃ target key, source = .property target key
    · obtain ⟨target, key, rfl⟩ := hsource
      rw [compileTerm] at h
      obtain ⟨p, hp, h⟩ := bind_eq_ok h
      obtain ⟨r, hr, h⟩ := bind_eq_ok h
      obtain rfl := Except.ok.inj h
      rw [Term.usedParams]
      exact .cons_ref (Scope.mem_of_reference hr) (.param (Scope.mem_of_param hp))
    · rw [compileTerm.eq_9 s source point fun t k ht => hsource ⟨t, k, ht⟩] at h
      obtain ⟨p, hp, h⟩ := bind_eq_ok h
      obtain ⟨e, he, h⟩ := bind_eq_ok h
      have hsource := compileTerm_resolves source he
      unfold distanceFrom at h
      split at h
      · obtain rfl := Except.ok.inj h
        exact hsource.append (.param (Scope.mem_of_param hp))
      · cases h
  | .call function argument, h =>
    rw [compileTerm] at h
    obtain ⟨a, ha, h⟩ := bind_eq_ok h
    rw [Term.usedParams]
    unfold applyNamed at h
    split at h
    · have hargument := compileTerm_resolves argument ha
      obtain rfl := Except.ok.inj h
      exact hargument
    · cases h
termination_by 2 * t.weight
decreasing_by all_goals (simp only [Term.weight]; omega)

theorem compileTerms_resolves {s : Scope} (items : List Term) {es : List Expr}
    (h : compileTerms s items = .ok es) :
    Resolves s (Term.usedByAll items) (Expr.itemVisits es) := by
  match items, h with
  | [], h =>
    rw [compileTerms] at h
    obtain rfl := Except.ok.inj h
    rw [Term.usedByAll]
    exact .nil s
  | item :: rest, h =>
    rw [compileTerms] at h
    obtain ⟨e, he, h⟩ := bind_eq_ok h
    obtain ⟨others, hothers, h⟩ := bind_eq_ok h
    obtain rfl := Except.ok.inj h
    rw [Term.usedByAll]
    exact (compileTerm_resolves item he).append (compileTerms_resolves rest hothers)
termination_by 2 * Term.weights items + 1
decreasing_by
  · simp only [Term.weights]; omega
  · have := item.weight_pos
    simp only [Term.weights]; omega

theorem compileStored_resolves {s : Scope} (entries : List (String × Json))
    {es : List (String × Expr)} (h : compileStored s entries = .ok es) :
    Resolves s (Term.usedByStored entries) (Expr.entryVisits es) := by
  match entries, h with
  | [], h =>
    rw [compileStored] at h
    obtain rfl := Except.ok.inj h
    rw [Term.usedByStored]
    exact .nil s
  | (key, value) :: rest, h =>
    rw [compileStored] at h
    split at h
    · cases h
    · rename_i t ht
      obtain ⟨e, he, h⟩ := bind_eq_ok h
      obtain ⟨others, hothers, h⟩ := bind_eq_ok h
      obtain rfl := Except.ok.inj h
      rw [Term.usedByStored_cons ht]
      exact (compileTerm_resolves t he).append (compileStored_resolves rest hothers)
termination_by 2 * Json.nodesOfMembers entries + 1
decreasing_by
  · have := Term.weight_ofJson ‹_›
    simp only [Json.nodesOfMembers]; omega
  · have := value.nodes_pos
    simp only [Json.nodesOfMembers]; omega

end

/-! ## Patterns, items and results -/

section Parts

variable {s : Scope}

/-- What each item resolves, all items resolve together. -/
theorem mapM_resolves {α β : Type} {f : α → Compile β} (used : α → List String)
    {visits : β → List Visit} (hf : ∀ a b, f a = .ok b → Resolves s (used a) (visits b))
    {items : List α} {out : List β} (h : items.mapM f = .ok out) :
    Resolves s (items.flatMap used) (out.flatMap visits) := by
  induction items generalizing out with
  | nil =>
    obtain rfl := Except.ok.inj h
    exact .nil s
  | cons item rest ih =>
    rw [List.mapM_cons] at h
    obtain ⟨b, hb, h⟩ := bind_eq_ok h
    obtain ⟨others, hothers, h⟩ := bind_eq_ok h
    obtain rfl := Except.ok.inj h
    exact (hf item b hb).append (ih hothers)

theorem compileNode_resolves {n : NodeUse} {p : NodePattern} (h : compileNode s n = .ok p) :
    Resolves s [] p.visits := by
  obtain ⟨node, hnode, h⟩ := bind_eq_ok h
  obtain rfl := Except.ok.inj h
  exact .cons_ref (Scope.mem_of_node hnode) (.nil s)

theorem compileHop_resolves {use : HopUse} {hop : Hop} (h : compileHop s use = .ok hop) :
    Resolves s [] hop.visits := by
  obtain ⟨r, hr, h⟩ := bind_eq_ok h
  obtain ⟨target, htarget, h⟩ := bind_eq_ok h
  obtain rfl := Except.ok.inj h
  have htarget := compileNode_resolves htarget
  rw [Hop.visits, Hop.arrowVisits]
  split
  · exact .cons_ref (Scope.mem_of_relationship hr) htarget
  · exact htarget

theorem compilePattern_resolves {use : PatternUse} {p : Pattern}
    (h : compilePattern s use = .ok p) : Resolves s [] p.visits := by
  obtain ⟨start, hstart, h⟩ := bind_eq_ok h
  obtain ⟨hops, hhops, h⟩ := bind_eq_ok h
  obtain rfl := Except.ok.inj h
  have hhops := mapM_resolves (fun _ => []) (fun _ _ => compileHop_resolves) hhops
  rw [List.flatMap_eq_nil_iff.mpr fun _ _ => rfl] at hhops
  exact (compileNode_resolves hstart).append hhops

theorem compileWith_resolves {use : WithUse} {item : WithItem}
    (h : compileWith s use = .ok item) : Resolves s use.expr.usedParams item.visits := by
  obtain ⟨e, he, h⟩ := bind_eq_ok h
  have he := compileTerm_resolves use.expr he
  split at h
  · obtain rfl := Except.ok.inj h
    exact he
  · obtain ⟨v, hv, h⟩ := bind_eq_ok h
    obtain rfl := Except.ok.inj h
    have h := he.append (.cons_ref (Scope.mem_of_var hv) (.nil s))
    rwa [List.append_nil] at h

theorem compileOrder_resolves {use : OrderUse} {item : OrderItem}
    (h : compileOrder s use = .ok item) : Resolves s use.expr.usedParams item.expr.visits := by
  obtain ⟨e, he, h⟩ := bind_eq_ok h
  obtain rfl := Except.ok.inj h
  exact compileTerm_resolves use.expr he

theorem compileTarget_resolves {use : ReturnUse} {target : ReturnTarget}
    (h : compileTarget s use = .ok target) :
    Resolves s ((use.expr.map Term.usedParams).getD []) target.visits := by
  unfold compileTarget at h
  split at h
  · -- an entity and an expression at once
    cases h
  · -- an entity uses no parameter
    rename_i hexpr
    obtain ⟨r, hr, h⟩ := bind_eq_ok h
    obtain rfl := Except.ok.inj h
    rw [hexpr]
    exact .cons_ref (Scope.mem_of_reference hr) (.nil s)
  · -- an expression uses those of its term
    rename_i expr _ hexpr
    split at h
    · obtain ⟨e, he, h⟩ := bind_eq_ok h
      obtain rfl := Except.ok.inj h
      rw [hexpr]
      exact compileTerm_resolves expr he
    · cases h
  · -- everything in scope, or a fault
    rename_i hexpr
    split at h
    · obtain rfl := Except.ok.inj h
      rw [hexpr]
      exact .nil s
    · cases h

theorem compileAlias_resolves {use : ReturnUse} {name : Option ReturnAlias}
    (h : compileAlias s use = .ok name) :
    Resolves s [] ((name.map ReturnAlias.visits).getD []) := by
  unfold compileAlias at h
  split at h
  · cases h
  · obtain rfl := Except.ok.inj h
    exact .nil s
  · obtain ⟨v, hv, h⟩ := bind_eq_ok h
    obtain rfl := Except.ok.inj h
    exact .cons_ref (Scope.mem_of_var hv) (.nil s)
  · obtain rfl := Except.ok.inj h
    exact .nil s

theorem compileResult_resolves {use : ReturnUse} {r : Result}
    (h : compileResult s use = .ok r) :
    Resolves s ((use.expr.map Term.usedParams).getD []) r.visits := by
  obtain ⟨target, htarget, h⟩ := bind_eq_ok h
  obtain ⟨name, hname, h⟩ := bind_eq_ok h
  obtain rfl := Except.ok.inj h
  have h := (compileTarget_resolves htarget).append (compileAlias_resolves hname)
  rwa [List.append_nil] at h

end Parts

/-! ## Conditions and statements -/

mutual

theorem compileCondition_resolves {s : Scope} (c : Condition) {p : Predicate}
    (h : compileCondition s c = .ok p) : Resolves s c.usedParams p.visits := by
  match c, h with
  | .compare operator lhs rhs, h =>
    obtain ⟨l, hl, h⟩ := bind_eq_ok h
    obtain ⟨r, hr, h⟩ := bind_eq_ok h
    obtain rfl := Except.ok.inj h
    exact (compileTerm_resolves lhs hl).append (compileTerm_resolves rhs hr)
  | .isNull expr, h =>
    obtain ⟨e, he, h⟩ := bind_eq_ok h
    obtain rfl := Except.ok.inj h
    exact compileTerm_resolves expr he
  | .isNotNull expr, h =>
    obtain ⟨e, he, h⟩ := bind_eq_ok h
    obtain rfl := Except.ok.inj h
    exact compileTerm_resolves expr he
  | .group junction operands, h =>
    obtain ⟨ps, hps, h⟩ := bind_eq_ok h
    obtain rfl := Except.ok.inj h
    exact compileConditions_resolves operands hps
  | .not operand, h =>
    obtain ⟨q, hq, h⟩ := bind_eq_ok h
    obtain rfl := Except.ok.inj h
    have hoperand := compileCondition_resolves operand hq
    exact hoperand
  | .existsIn statements, h =>
    obtain ⟨body, hbody, h⟩ := bind_eq_ok h
    obtain rfl := Except.ok.inj h
    exact compileStatements_resolves statements hbody

theorem compileConditions_resolves {s : Scope} (operands : List Condition) {ps : List Predicate}
    (h : compileConditions s operands = .ok ps) :
    Resolves s (Condition.usedByAll operands) (Predicate.operandVisits ps) := by
  match operands, h with
  | [], h =>
    obtain rfl := Except.ok.inj h
    exact .nil s
  | operand :: rest, h =>
    obtain ⟨p, hp, h⟩ := bind_eq_ok h
    obtain ⟨others, hothers, h⟩ := bind_eq_ok h
    obtain rfl := Except.ok.inj h
    exact (compileCondition_resolves operand hp).append (compileConditions_resolves rest hothers)

theorem compileStatement_resolves {s : Scope} (st : Statement) {c : Clause}
    (h : compileStatement s st = .ok c) : Resolves s st.usedParams c.visits := by
  match st, h with
  | .create node properties, h =>
    obtain ⟨n, hn, h⟩ := bind_eq_ok h
    obtain ⟨es, hes, h⟩ := bind_eq_ok h
    obtain rfl := Except.ok.inj h
    -- the node is visited in its pattern, and once more for its properties
    have hn := Scope.mem_of_node hn
    exact .cons_ref hn (.cons_ref hn (compileStored_resolves properties hes))
  | .matching pattern optional none, h =>
    obtain ⟨p, hp, h⟩ := bind_eq_ok h
    obtain rfl := Except.ok.inj h
    exact compilePattern_resolves hp
  | .matching pattern optional (some condition), h =>
    obtain ⟨p, hp, h⟩ := bind_eq_ok h
    obtain ⟨c, hc, h⟩ := bind_eq_ok h
    obtain rfl := Except.ok.inj h
    exact (compilePattern_resolves hp).append (compileCondition_resolves condition hc)
  | .call statements, h =>
    obtain ⟨body, hbody, h⟩ := bind_eq_ok h
    obtain rfl := Except.ok.inj h
    exact compileStatements_resolves statements hbody
  | .withAll, h =>
    obtain rfl := Except.ok.inj h
    exact .nil s
  | .withItems items, h =>
    obtain ⟨is, his, h⟩ := bind_eq_ok h
    obtain rfl := Except.ok.inj h
    exact mapM_resolves _ (fun _ _ => compileWith_resolves) his
  | .set target properties, h =>
    obtain ⟨r, hr, h⟩ := bind_eq_ok h
    obtain ⟨es, hes, h⟩ := bind_eq_ok h
    obtain rfl := Except.ok.inj h
    exact .cons_ref (Scope.mem_of_reference hr) (compileStored_resolves properties hes)
  | .orderBy items, h =>
    obtain ⟨is, his, h⟩ := bind_eq_ok h
    obtain rfl := Except.ok.inj h
    exact mapM_resolves _ (fun _ _ => compileOrder_resolves) his
  | .skip param, h =>
    obtain ⟨p, hp, h⟩ := bind_eq_ok h
    obtain rfl := Except.ok.inj h
    exact .param (Scope.mem_of_param hp)
  | .limit param, h =>
    obtain ⟨p, hp, h⟩ := bind_eq_ok h
    obtain rfl := Except.ok.inj h
    exact .param (Scope.mem_of_param hp)
  | .result use, h =>
    obtain ⟨r, hr, h⟩ := bind_eq_ok h
    obtain rfl := Except.ok.inj h
    exact compileResult_resolves hr

theorem compileStatements_resolves {s : Scope} {index : Nat} (statements : List Statement)
    {cs : List Clause} (h : compileStatements s index statements = .ok cs) :
    Resolves s (Statement.usedByAll statements) (Clause.bodyVisits cs) := by
  match statements, h with
  | [], h =>
    obtain rfl := Except.ok.inj h
    exact .nil s
  | statement :: rest, h =>
    rw [compileStatements] at h
    split at h
    · cases h
    · obtain ⟨c, hc, h⟩ := bind_eq_ok h
      obtain ⟨others, hothers, h⟩ := bind_eq_ok h
      obtain rfl := Except.ok.inj h
      exact (compileStatement_resolves statement hc).append
        (compileStatements_resolves rest hothers)

end

end GraphQuery.Plan
