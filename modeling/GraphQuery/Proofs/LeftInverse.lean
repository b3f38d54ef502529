import GraphQuery.Proofs.ReadBack

/-!
# Compiling loses nothing

Each function of the compiler takes names out of a part of a plan and puts references in. Reading
back does the opposite, part by part, and the two fit together wherever compiling succeeds: the same
hops in the same direction, the same operands in the same order, the same fields before the same
entries. A dropped condition or two operands that change places would show at once, as the part that
is read back would be another one.

What remains is that the names put in are those taken out. It rests on the order of the declarations
alone: the arena counts its references, and the declarations were gone through in that order.
-/

namespace GraphQuery.Plan

/-! ## Terms -/

section Fields

variable {names : Reading}

/-- Whatever can stand in the text is kept as it is. -/
theorem toJson_of_literal {value : Json} {l : Literal} (h : literal value = .ok l) :
    l.toJson = value := by
  cases value with
  | null =>
    obtain rfl := Except.ok.inj h
    rfl
  | bool b =>
    obtain rfl := Except.ok.inj h
    rfl
  | int n =>
    rw [literal] at h
    split at h
    · obtain rfl := Except.ok.inj h
      rfl
    · cases h
  | float x =>
    obtain rfl := Except.ok.inj h
    rfl
  | str text => cases h
  | arr items => cases h
  | obj members => cases h

theorem readFields_entries (properties : List (String × Expr)) :
    Expr.readFields names (properties.map fun entry => ProjectionField.entry entry.1 entry.2)
      = (readProperties names properties).map fun entries => ([], entries) := by
  induction properties with
  | nil => rfl
  | cons property rest ih =>
    obtain ⟨key, value⟩ := property
    rw [List.map_cons, Expr.readFields, readProperties, ih]
    cases value.readBack names with
    | none => rfl
    | some t => cases readProperties names rest <;> rfl

/-- The fields of a projection and the entries after them are kept apart. -/
theorem readFields_projection (fields : List String) {properties : List (String × Expr)}
    {entries : List (String × Json)} (h : readProperties names properties = some entries) :
    Expr.readFields names (fields.map .shorthand
        ++ properties.map fun entry => ProjectionField.entry entry.1 entry.2)
      = some (fields, entries) := by
  induction fields with
  | nil =>
    rw [List.map_nil, List.nil_append, readFields_entries, h]
    rfl
  | cons field rest ih =>
    rw [List.map_cons, List.cons_append, Expr.readFields, ih]
    rfl

end Fields

mutual

theorem compileTerm_readBack {names : Reading} {s : Scope} (hs : s.Spells names) (t : Term)
    {e : Expr} (h : compileTerm s t = .ok e) : e.readBack names = some t.canonical := by
  match t, h with
  | .param name, h =>
    rw [compileTerm] at h
    obtain ⟨p, hp, h⟩ := bind_eq_ok h
    obtain rfl := Except.ok.inj h
    simp [Expr.readBack, Term.canonical, hs.param hp]
  | .ref name, h =>
    rw [compileTerm] at h
    obtain ⟨r, hr, h⟩ := bind_eq_ok h
    obtain rfl := Except.ok.inj h
    simp [Expr.readBack, Term.canonical, hs.reference hr]
  | .property target key, h =>
    rw [compileTerm] at h
    obtain ⟨r, hr, h⟩ := bind_eq_ok h
    obtain rfl := Except.ok.inj h
    simp [Expr.readBack, Term.canonical, hs.reference hr]
  | .literal value, h =>
    rw [compileTerm] at h
    obtain ⟨l, hl, h⟩ := bind_eq_ok h
    obtain rfl := Except.ok.inj h
    simp [Expr.readBack, Term.canonical, toJson_of_literal hl]
  | .list items, h =>
    rw [compileTerm] at h
    obtain ⟨es, hes, h⟩ := bind_eq_ok h
    obtain rfl := Except.ok.inj h
    have hitems := compileTerms_readBack hs items hes
    simp [Expr.readBack, Term.canonical, hitems]
  | .projection target fields entries, h =>
    rw [compileTerm] at h
    obtain ⟨es, hes, h⟩ := bind_eq_ok h
    obtain ⟨r, hr, h⟩ := bind_eq_ok h
    obtain rfl := Except.ok.inj h
    have hfields := readFields_projection fields (compileStored_readBack hs entries hes)
    simp [Expr.readBack, Term.canonical, hs.reference hr, hfields]
  | .coalesce target key fallback, h =>
    rw [compileTerm] at h
    obtain ⟨r, hr, h⟩ := bind_eq_ok h
    obtain ⟨f, hf, h⟩ := bind_eq_ok h
    obtain rfl := Except.ok.inj h
    have hfallback := compileTerm_readBack hs fallback hf
    simp [Expr.readBack, FunctionCall.readBack, Term.canonical, hs.reference hr, hfallback]
  | .distance source point, h =>
    rw [Term.canonical]
    -- a property is compiled by an equation of its own, any other source has to become a call
    by_cases hsource : ∃ target key, source = .property target key
    · obtain ⟨target, key, rfl⟩ := hsource
      rw [compileTerm] at h
      obtain ⟨p, hp, h⟩ := bind_eq_ok h
      obtain ⟨r, hr, h⟩ := bind_eq_ok h
      obtain rfl := Except.ok.inj h
      simp [Expr.readBack, FunctionCall.readBack, DistanceSource.readBack, Term.canonical,
        hs.reference hr, hs.param hp]
    · rw [compileTerm.eq_9 s source point fun t k ht => hsource ⟨t, k, ht⟩] at h
      obtain ⟨p, hp, h⟩ := bind_eq_ok h
      obtain ⟨e, he, h⟩ := bind_eq_ok h
      have hread := compileTerm_readBack hs source he
      unfold distanceFrom at h
      split at h
      · obtain rfl := Except.ok.inj h
        rw [Expr.readBack] at hread
        simp [Expr.readBack, FunctionCall.readBack, DistanceSource.readBack, hread, hs.param hp]
      · cases h
  | .call function argument, h =>
    rw [compileTerm] at h
    obtain ⟨a, ha, h⟩ := bind_eq_ok h
    have hargument := compileTerm_readBack hs argument ha
    unfold applyNamed at h
    split at h
    · rename_i f hf
      have hname : f.name = function := by simpa using List.find?_some hf
      obtain rfl := Except.ok.inj h
      simp [Expr.readBack, FunctionCall.readBack, Term.canonical, hargument, hname]
    · cases h
termination_by 2 * t.weight
decreasing_by all_goals (simp only [Term.weight]; omega)

theorem compileTerms_readBack {names : Reading} {s : Scope} (hs : s.Spells names)
    (items : List Term) {es : List Expr} (h : compileTerms s items = .ok es) :
    Expr.readItems names es = some (Term.canonicalItems items) := by
  match items, h with
  | [], h =>
    rw [compileTerms] at h
    obtain rfl := Except.ok.inj h
    rw [Term.canonicalItems, Expr.readItems]
  | item :: rest, h =>
    rw [compileTerms] at h
    obtain ⟨e, he, h⟩ := bind_eq_ok h
    obtain ⟨others, hothers, h⟩ := bind_eq_ok h
    obtain rfl := Except.ok.inj h
    have hitem := compileTerm_readBack hs item he
    have hrest := compileTerms_readBack hs rest hothers
    simp [Expr.readItems, Term.canonicalItems, hitem, hrest]
termination_by 2 * Term.weights items + 1
decreasing_by
  · simp only [Term.weights]; omega
  · have := item.weight_pos
    simp only [Term.weights]; omega

theorem compileStored_readBack {names : Reading} {s : Scope} (hs : s.Spells names)
    (entries : List (String × Json)) {es : List (String × Expr)}
    (h : compileStored s entries = .ok es) :
    readProperties names es = some (Term.canonicalStored entries) := by
  match entries, h with
  | [], h =>
    rw [compileStored] at h
    obtain rfl := Except.ok.inj h
    rw [Term.canonicalStored]
    rfl
  | (key, value) :: rest, h =>
    rw [compileStored] at h
    split at h
    · -- a value that is no term stops the compilation
      cases h
    · rename_i t ht
      obtain ⟨e, he, h⟩ := bind_eq_ok h
      obtain ⟨others, hothers, h⟩ := bind_eq_ok h
      obtain rfl := Except.ok.inj h
      have hterm := compileTerm_readBack hs t he
      have hrest := compileStored_readBack hs rest hothers
      rw [Term.canonicalStored_cons ht]
      simp [readProperties, hterm, hrest]
termination_by 2 * Json.nodesOfMembers entries + 1
decreasing_by
  · have := Term.weight_ofJson ‹_›
    simp only [Json.nodesOfMembers]; omega
  · have := value.nodes_pos
    simp only [Json.nodesOfMembers]; omega

end

/-! ## Patterns, items and results -/

section Parts

variable {names : Reading} {s : Scope}

/-- What is read back of each item is read back of all items. -/
theorem mapM_readBack {α β : Type} {compile : α → Compile β} {read : β → Option α}
    {canonical : α → α} (h : ∀ a b, compile a = .ok b → read b = some (canonical a))
    {items : List α} {out : List β} (hout : items.mapM compile = .ok out) :
    out.mapM read = some (items.map canonical) := by
  induction items generalizing out with
  | nil =>
    obtain rfl := Except.ok.inj hout
    rfl
  | cons item rest ih =>
    rw [List.mapM_cons] at hout
    obtain ⟨b, hb, hout⟩ := bind_eq_ok hout
    obtain ⟨others, hothers, hout⟩ := bind_eq_ok hout
    obtain rfl := Except.ok.inj hout
    rw [List.mapM_cons, h item b hb, ih hothers]
    rfl

theorem compileNode_readBack (hs : s.Spells names) {use : NodeUse} {p : NodePattern}
    (h : compileNode s use = .ok p) : p.readBack names = some use := by
  obtain ⟨n, hn, h⟩ := bind_eq_ok h
  obtain rfl := Except.ok.inj h
  simp [NodePattern.readBack, hs.node hn]

theorem compileHop_readBack (hs : s.Spells names) {use : HopUse} {hop : Hop}
    (h : compileHop s use = .ok hop) : hop.readBack names = some use := by
  obtain ⟨r, hr, h⟩ := bind_eq_ok h
  obtain ⟨target, htarget, h⟩ := bind_eq_ok h
  obtain rfl := Except.ok.inj h
  have htarget := compileNode_readBack hs htarget
  simp [Hop.readBack, hs.relationship hr, htarget]

theorem compilePattern_readBack (hs : s.Spells names) {use : PatternUse} {p : Pattern}
    (h : compilePattern s use = .ok p) : p.readBack names = some use := by
  obtain ⟨start, hstart, h⟩ := bind_eq_ok h
  obtain ⟨hops, hhops, h⟩ := bind_eq_ok h
  obtain rfl := Except.ok.inj h
  have hstart := compileNode_readBack hs hstart
  have hhops := mapM_readBack (fun _ _ => compileHop_readBack hs) hhops
  simp [Pattern.readBack, hstart, hhops]

theorem compileWith_readBack (hs : s.Spells names) {use : WithUse} {item : WithItem}
    (h : compileWith s use = .ok item) : item.readBack names = some use.canonical := by
  obtain ⟨e, he, h⟩ := bind_eq_ok h
  have he := compileTerm_readBack hs use.expr he
  split at h
  · rename_i hname
    obtain rfl := Except.ok.inj h
    simp [WithItem.readBack, WithUse.canonical, he, hname]
  · rename_i hname
    obtain ⟨v, hv, h⟩ := bind_eq_ok h
    obtain rfl := Except.ok.inj h
    simp [WithItem.readBack, WithUse.canonical, he, hname, hs.var hv]

theorem compileOrder_readBack (hs : s.Spells names) {use : OrderUse} {item : OrderItem}
    (h : compileOrder s use = .ok item) : item.readBack names = some use.canonical := by
  obtain ⟨e, he, h⟩ := bind_eq_ok h
  obtain rfl := Except.ok.inj h
  have hexpr := compileTerm_readBack hs use.expr he
  simp [OrderItem.readBack, OrderUse.canonical, hexpr]

/-- Whatever a result names or leaves out is read back, without its alias. -/
theorem compileTarget_readBack (hs : s.Spells names) {use : ReturnUse} {target : ReturnTarget}
    (h : compileTarget s use = .ok target) : target.readBack names
      = some { use.canonical with aliasName := none, aliasVariable := none } := by
  obtain ⟨entity, fields, expr, aliasName, aliasVariable⟩ := use
  unfold compileTarget at h
  dsimp only at h
  split at h
  · -- an entity and an expression at once
    cases h
  · -- an entity and the properties listed for it
    obtain ⟨r, hr, h⟩ := bind_eq_ok h
    obtain rfl := Except.ok.inj h
    simp [ReturnTarget.readBack, ReturnUse.canonical, hs.reference hr]
  · -- an expression, for which no properties may be listed
    split at h
    · rename_i hempty
      obtain ⟨e, he, h⟩ := bind_eq_ok h
      obtain rfl := Except.ok.inj h
      have hexpr := compileTerm_readBack hs _ he
      simp [ReturnTarget.readBack, ReturnUse.canonical, hexpr, List.isEmpty_iff.mp hempty]
    · cases h
  · -- neither, so everything in scope
    split at h
    · rename_i hempty
      obtain rfl := Except.ok.inj h
      simp [ReturnTarget.readBack, ReturnUse.canonical, List.isEmpty_iff.mp hempty]
    · cases h

theorem compileResult_readBack (hs : s.Spells names) {use : ReturnUse} {r : Result}
    (h : compileResult s use = .ok r) : r.readBack names = some use.canonical := by
  obtain ⟨target, htarget, h⟩ := bind_eq_ok h
  obtain ⟨name, hname, h⟩ := bind_eq_ok h
  obtain rfl := Except.ok.inj h
  have htarget := compileTarget_readBack hs htarget
  obtain ⟨entity, fields, expr, aliasName, aliasVariable⟩ := use
  unfold compileAlias at hname
  dsimp only at hname
  split at hname
  · cases hname
  · obtain rfl := Except.ok.inj hname
    simp [Result.readBack, htarget, ReturnUse.canonical]
  · obtain ⟨v, hv, hname⟩ := bind_eq_ok hname
    obtain rfl := Except.ok.inj hname
    simp [Result.readBack, htarget, ReturnUse.canonical, hs.var hv]
  · obtain rfl := Except.ok.inj hname
    simp [Result.readBack, htarget, ReturnUse.canonical]

end Parts

/-! ## Conditions and statements -/

mutual

theorem compileCondition_readBack {names : Reading} {s : Scope} (hs : s.Spells names)
    (c : Condition) {p : Predicate} (h : compileCondition s c = .ok p) :
    p.readBack names = some c.canonical := by
  match c, h with
  | .compare operator lhs rhs, h =>
    obtain ⟨l, hl, h⟩ := bind_eq_ok h
    obtain ⟨r, hr, h⟩ := bind_eq_ok h
    obtain rfl := Except.ok.inj h
    have hlhs := compileTerm_readBack hs lhs hl
    have hrhs := compileTerm_readBack hs rhs hr
    simp [Predicate.readBack, Condition.canonical, hlhs, hrhs]
  | .isNull expr, h =>
    obtain ⟨e, he, h⟩ := bind_eq_ok h
    obtain rfl := Except.ok.inj h
    have hexpr := compileTerm_readBack hs expr he
    simp [Predicate.readBack, Condition.canonical, hexpr]
  | .isNotNull expr, h =>
    obtain ⟨e, he, h⟩ := bind_eq_ok h
    obtain rfl := Except.ok.inj h
    have hexpr := compileTerm_readBack hs expr he
    simp [Predicate.readBack, Condition.canonical, hexpr]
  | .group junction operands, h =>
    obtain ⟨ps, hps, h⟩ := bind_eq_ok h
    obtain rfl := Except.ok.inj h
    have hoperands := compileConditions_readBack hs operands hps
    simp [Predicate.readBack, Condition.canonical, hoperands]
  | .not operand, h =>
    obtain ⟨q, hq, h⟩ := bind_eq_ok h
    obtain rfl := Except.ok.inj h
    have hoperand := compileCondition_readBack hs operand hq
    simp [Predicate.readBack, Condition.canonical, hoperand]
  | .existsIn statements, h =>
    obtain ⟨body, hbody, h⟩ := bind_eq_ok h
    obtain rfl := Except.ok.inj h
    have hbody := compileStatements_readBack hs statements hbody
    simp [Predicate.readBack, Condition.canonical, hbody]

theorem compileConditions_readBack {names : Reading} {s : Scope} (hs : s.Spells names)
    (operands : List Condition) {ps : List Predicate} (h : compileConditions s operands = .ok ps) :
    Predicate.readOperands names ps = some (Condition.canonicalAll operands) := by
  match operands, h with
  | [], h =>
    obtain rfl := Except.ok.inj h
    rfl
  | operand :: rest, h =>
    obtain ⟨p, hp, h⟩ := bind_eq_ok h
    obtain ⟨others, hothers, h⟩ := bind_eq_ok h
    obtain rfl := Except.ok.inj h
    have hoperand := compileCondition_readBack hs operand hp
    have hrest := compileConditions_readBack hs rest hothers
    simp [Predicate.readOperands, Condition.canonicalAll, hoperand, hrest]

theorem compileStatement_readBack {names : Reading} {s : Scope} (hs : s.Spells names)
    (st : Statement) {c : Clause} (h : compileStatement s st = .ok c) :
    c.readBack names = some st.canonical := by
  -- the parts read back by their own lemmas, and stand in the clause as in the statement
  match st, h with
  | .create node properties, h =>
    obtain ⟨n, hn, h⟩ := bind_eq_ok h
    obtain ⟨es, hes, h⟩ := bind_eq_ok h
    obtain rfl := Except.ok.inj h
    have hproperties := compileStored_readBack hs properties hes
    simp [Clause.readBack, Statement.canonical, hs.node hn, hproperties]
  | .matching pattern isOptional none, h =>
    obtain ⟨p, hp, h⟩ := bind_eq_ok h
    obtain rfl := Except.ok.inj h
    have hpattern := compilePattern_readBack hs hp
    simp [Clause.readBack, Statement.canonical, hpattern]
  | .matching pattern isOptional (some condition), h =>
    obtain ⟨p, hp, h⟩ := bind_eq_ok h
    obtain ⟨c, hc, h⟩ := bind_eq_ok h
    obtain rfl := Except.ok.inj h
    have hpattern := compilePattern_readBack hs hp
    have hcondition := compileCondition_readBack hs condition hc
    simp [Clause.readBack, Statement.canonical, hpattern, hcondition]
  | .call statements, h =>
    obtain ⟨body, hbody, h⟩ := bind_eq_ok h
    obtain rfl := Except.ok.inj h
    have hbody := compileStatements_readBack hs statements hbody
    simp [Clause.readBack, Statement.canonical, hbody]
  | .withAll, h =>
    obtain rfl := Except.ok.inj h
    rfl
  | .withItems items, h =>
    obtain ⟨is, his, h⟩ := bind_eq_ok h
    obtain rfl := Except.ok.inj h
    have hitems := mapM_readBack (fun _ _ => compileWith_readBack hs) his
    simp [Clause.readBack, Statement.canonical, hitems]
  | .set target properties, h =>
    obtain ⟨r, hr, h⟩ := bind_eq_ok h
    obtain ⟨es, hes, h⟩ := bind_eq_ok h
    obtain rfl := Except.ok.inj h
    have hproperties := compileStored_readBack hs properties hes
    simp [Clause.readBack, Statement.canonical, hs.reference hr, hproperties]
  | .orderBy items, h =>
    obtain ⟨is, his, h⟩ := bind_eq_ok h
    obtain rfl := Except.ok.inj h
    have hitems := mapM_readBack (fun _ _ => compileOrder_readBack hs) his
    simp [Clause.readBack, Statement.canonical, hitems]
  | .skip param, h =>
    obtain ⟨p, hp, h⟩ := bind_eq_ok h
    obtain rfl := Except.ok.inj h
    simp [Clause.readBack, Statement.canonical, hs.param hp]
  | .limit param, h =>
    obtain ⟨p, hp, h⟩ := bind_eq_ok h
    obtain rfl := Except.ok.inj h
    simp [Clause.readBack, Statement.canonical, hs.param hp]
  | .result use, h =>
    obtain ⟨r, hr, h⟩ := bind_eq_ok h
    obtain rfl := Except.ok.inj h
    have hresult := compileResult_readBack hs hr
    simp [Clause.readBack, Statement.canonical, hresult]

theorem compileStatements_readBack {names : Reading} {s : Scope} (hs : s.Spells names)
    {index : Nat} (statements : List Statement) {cs : List Clause}
    (h : compileStatements s index statements = .ok cs) :
    Clause.readBody names cs = some (Statement.canonicalAll statements) := by
  match statements, h with
  | [], h =>
    obtain rfl := Except.ok.inj h
    rfl
  | statement :: rest, h =>
    rw [compileStatements] at h
    split at h
    · cases h
    · obtain ⟨c, hc, h⟩ := bind_eq_ok h
      obtain ⟨others, hothers, h⟩ := bind_eq_ok h
      obtain rfl := Except.ok.inj h
      have hstatement := compileStatement_readBack hs statement hc
      have hrest := compileStatements_readBack hs rest hothers
      simp [Clause.readBody, Statement.canonicalAll, hstatement, hrest]

end

/-! ## Plans -/

section Plans

variable {plan : Plan} {id : ArenaId} {c : Compiled}

/-- Each parameter that is visited is the declared one, with its value. -/
theorem declared_of_visit {s : Scope} {used : List String} {vs : List Visit}
    (hd : Declared plan id s) (hs : Scope.Of plan id s) (hr : Resolves s used vs) {p : Param}
    (hp : .param p ∈ vs) : ∃ name decl, plan.nameOf id (.param p) = some name
      ∧ plan.params.get? name = some decl ∧ p.value = decl.value ∧ p.isPoint = decl.isPoint := by
  have hmem := hr.mem_params hd hp
  have hparam : s.param (s.nameOf p) = .ok p := by
    rw [Scope.param, find?_of_nodup Prod.fst hd.nodup_names hmem]
  have hname := nameOf_param hd hs hparam
  obtain ⟨decl, hget, hdecl⟩ := hs.get?_of_param hparam
  have hvalue := congrArg Param.value hdecl
  have hpoint := congrArg Param.isPoint hdecl
  exact ⟨s.nameOf p, decl, hname, hget, hvalue, hpoint⟩

/-- **Compiling loses nothing and reorders nothing.** From a compiled query the statements of the
plan can be read back, in their canonical form: nothing but the spelling of stored values is given
up, and values that are spelled the same stand for the same expression. Every parameter has the
value that was declared for the name it is read as. And whatever is read as one name is one
reference, and whatever is read as two names is two. -/
theorem compile_readBack (h : plan.compile id = .ok c) :
    c.query.readBack (plan.nameOf id) = some (Statement.canonicalAll plan.statements)
    ∧ (∀ t t' : Term, t.toJson = t'.toJson → t = t')
    ∧ (∀ p, .param p ∈ c.query.visits → ∃ name decl, plan.nameOf id (.param p) = some name
        ∧ plan.params.get? name = some decl ∧ p.value = decl.value ∧ p.isPoint = decl.isPoint)
    ∧ ∀ (m m' : Mention) (name name' : String), plan.nameOf id m = some name →
        plan.nameOf id m' = some name' → (m.id = m'.id ↔ name = name') := by
  obtain ⟨⟨s, a⟩, hdeclare, h⟩ := bind_eq_ok h
  obtain ⟨clauses, hclauses, h⟩ := bind_eq_ok h
  obtain rfl := Except.ok.inj h
  obtain ⟨-, hd⟩ := declare_declared hdeclare
  have hs := declare_of hdeclare
  have hresolves := compileStatements_resolves plan.statements hclauses
  refine ⟨?_, ?_, ?_, ?_⟩
  · exact compileStatements_readBack (spells_nameOf hd hs) plan.statements hclauses
  · intro t t' ht
    exact Term.eq_of_toJson ht
  · intro p hp
    exact declared_of_visit hd hs hresolves hp
  · intro m m' name name' hm hm'
    exact id_eq_iff_name_eq hs hm hm'

end Plans

/-- The value stored in `aged` is spelled canonically. -/
theorem aged_canonical : Statement.canonicalAll aged.statements = aged.statements := by
  simp [aged, Statement.canonicalAll, Statement.canonical,
    Term.canonicalStored_cons (ofJson_param _), Term.canonicalStored, Term.canonical,
    ReturnUse.canonical, Term.toJson, choice]

/-- The node of `aged`, as its statements mention it. -/
def agedNode : NodeRef :=
  ⟨⟨⟨0⟩, 0⟩, ["A"]⟩

/-- The parameter of `aged`. -/
def agedParam : Param :=
  ⟨⟨⟨0⟩, 1⟩, .int 30, false⟩

theorem compile_readBack_aged :
    aged.compile ⟨0⟩ = .ok ⟨⟨⟨0⟩, 2⟩, agedQuery⟩
    ∧ agedQuery.readBack (aged.nameOf ⟨0⟩) = some aged.statements
    ∧ (.param agedParam ∈ agedQuery.visits ∧ ∃ name decl,
      aged.nameOf ⟨0⟩ (.param agedParam) = some name ∧ aged.params.get? name = some decl
        ∧ agedParam.value = decl.value ∧ agedParam.isPoint = decl.isPoint)
    ∧ aged.nameOf ⟨0⟩ (.node agedNode) = some "n"
    ∧ aged.nameOf ⟨0⟩ (.ref agedNode.reference) = some "n"
    ∧ aged.nameOf ⟨0⟩ (.param agedParam) = some "age"
    ∧ (agedNode.id = agedNode.reference.id ↔ "n" = "n")
    ∧ (agedNode.id = agedParam.id ↔ "n" = "age") := by
  obtain ⟨hread, -, hdeclared, hnames⟩ := compile_readBack aged_compile
  rw [aged_canonical] at hread
  have hvisit : .param agedParam ∈ agedQuery.visits := List.mem_of_getElem? (i := 2) rfl
  have hmakers : aged.makers = [("n", (EntityDecl.node ["A"]).makes),
      ("age", (ParamDecl.mk (.int 30) false).makes)] := by
    simp [makers, aged, Table.sorted, Table.ofList, Table.insert, Table.put, Table.empty]
  have hnode : aged.nameOf ⟨0⟩ (.node agedNode) = some "n" := by
    rw [nameOf, hmakers]
    rfl
  have href : aged.nameOf ⟨0⟩ (.ref agedNode.reference) = some "n" := by
    rw [nameOf, hmakers]
    rfl
  have hparam : aged.nameOf ⟨0⟩ (.param agedParam) = some "age" := by
    rw [nameOf, hmakers]
    rfl
  exact ⟨aged_compile, hread, ⟨hvisit, hdeclared _ hvisit⟩, hnode, href, hparam,
    hnames _ _ _ _ hnode href, hnames _ _ _ _ hnode hparam⟩

end GraphQuery.Plan
