import GraphQuery.Proofs.PlanNames

/-!
# Which plans compile

A plan is well formed when every name stands for what is asked of it where it is used, inline values
can be written, functions exist, distances are measured from something that can be a source, results
come last and do not contradict themselves, and no name is declared in both tables. Stored values
have to be terms, and well-formed ones.

None of this speaks of scopes, of an order in which anything is looked up, or of what is reported
when several things are wrong at once. It is nevertheless exactly what the compilation asks: it
succeeds on the well-formed plans and on no others. Both directions go by the syntax at once, since
whether a step succeeds never depends on what the steps before it gave, except for the source of a
distance, where it has to be a call.
-/

namespace GraphQuery

namespace Plan

/-! ## Well-formed plans -/

/-- The plan declares the name for this use. -/
def Declares (plan : Plan) (use : Use) (name : String) : Prop :=
  match use with
  | .node => ∃ labels, plan.entities.get? name = some (.node labels)
  | .relationship => ∃ type, plan.entities.get? name = some (.relationship type)
  | .var => plan.entities.get? name = some .var
  | .entity => ∃ decl, plan.entities.get? name = some decl
  | .param => ∃ decl, plan.params.get? name = some decl

/-- The values that can stand in the text. -/
inductive Inline : Json → Prop
  | null : Inline .null
  | bool (b : Bool) : Inline (.bool b)
  | int {n : Int} (lower : -(Word.signedEnd : Int) ≤ n) (upper : n < Word.signedEnd) :
    Inline (.int n)
  | float (x : Float) : Inline (.float x)

/-- The names of the functions of one argument. -/
def functionNames : List String :=
  ["collect", "count", "min", "max", "avg", "sum", "size", "toLower", "toUpper"]

/-- What a distance can be measured from. -/
def Term.isSource : Term → Bool
  | .property _ _ | .coalesce _ _ _ | .distance _ _ | .call _ _ => true
  | .param _ | .ref _ | .literal _ | .list _ | .projection _ _ _ => false

mutual

/-- Every name in the term is declared for its use, its inline values can be written, its functions
exist, and its distances have sources. -/
inductive Term.WellFormed (plan : Plan) : Term → Prop
  | param {name : String} (declared : plan.Declares .param name) :
    Term.WellFormed plan (.param name)
  | ref {name : String} (declared : plan.Declares .entity name) : Term.WellFormed plan (.ref name)
  | property {target key : String} (declared : plan.Declares .entity target) :
    Term.WellFormed plan (.property target key)
  | literal {value : Json} (writable : Inline value) : Term.WellFormed plan (.literal value)
  | list {items : List Term} (each : Term.AllWellFormed plan items) :
    Term.WellFormed plan (.list items)
  | projection {target : String} {fields : List String} {entries : List (String × Json)}
    (declared : plan.Declares .entity target) (stored : Term.StoredWellFormed plan entries) :
    Term.WellFormed plan (.projection target fields entries)
  | coalesce {target key : String} {fallback : Term} (declared : plan.Declares .entity target)
    (wellFormed : Term.WellFormed plan fallback) :
    Term.WellFormed plan (.coalesce target key fallback)
  | distance {source : Term} {point : String} (shape : source.isSource)
    (declared : plan.Declares .param point) (wellFormed : Term.WellFormed plan source) :
    Term.WellFormed plan (.distance source point)
  | call {function : String} {argument : Term} (known : function ∈ functionNames)
    (wellFormed : Term.WellFormed plan argument) :
    Term.WellFormed plan (.call function argument)

/-- Each term of the list is well formed. -/
inductive Term.AllWellFormed (plan : Plan) : List Term → Prop
  | nil : Term.AllWellFormed plan []
  | cons {item : Term} {rest : List Term} (first : Term.WellFormed plan item)
    (others : Term.AllWellFormed plan rest) : Term.AllWellFormed plan (item :: rest)

/-- Stored values are terms. -/
inductive Term.StoredWellFormed (plan : Plan) : List (String × Json) → Prop
  | nil : Term.StoredWellFormed plan []
  | cons {key : String} {value : Json} {t : Term} {rest : List (String × Json)}
    (as_term : Term.ofJson value = .ok t) (first : Term.WellFormed plan t)
    (others : Term.StoredWellFormed plan rest) :
    Term.StoredWellFormed plan ((key, value) :: rest)

end

/-- The names of a step are those of a relationship and of a node. -/
structure HopUse.WellFormed (plan : Plan) (h : HopUse) : Prop where
  relationship : plan.Declares .relationship h.relationship
  target : plan.Declares .node h.target.node

/-- The names of a pattern are those of relationships and nodes, in their places. -/
structure PatternUse.WellFormed (plan : Plan) (p : PatternUse) : Prop where
  start : plan.Declares .node p.start.node
  hops : ∀ h ∈ p.hops, h.WellFormed plan

/-- The expression is well formed, and what it is carried under is a variable. -/
structure WithUse.WellFormed (plan : Plan) (w : WithUse) : Prop where
  expr : w.expr.WellFormed plan
  aliasName : ∀ name, w.aliasName = some name → plan.Declares .var name

/-- The parts of a result go together. -/
structure ReturnUse.WellFormed (plan : Plan) (r : ReturnUse) : Prop where
  /-- An entity and an expression exclude each other. -/
  entity_or_expr : r.entity = none ∨ r.expr = none
  /-- Properties are listed for an entity only. -/
  fields_of_entity : r.entity = none → r.fields = []
  /-- There are not two output names. -/
  one_alias : r.aliasName = none ∨ r.aliasVariable = none
  entity : ∀ name, r.entity = some name → plan.Declares .entity name
  expr : ∀ t, r.expr = some t → t.WellFormed plan
  aliasVariable : ∀ name, r.aliasVariable = some name → plan.Declares .var name

mutual

/-- All terms of the condition and all of its subqueries are well formed. -/
inductive Condition.WellFormed (plan : Plan) : Condition → Prop
  | compare {operator : Comparison} {lhs rhs : Term} (left : lhs.WellFormed plan)
    (right : rhs.WellFormed plan) : Condition.WellFormed plan (.compare operator lhs rhs)
  | isNull {expr : Term} (wellFormed : expr.WellFormed plan) :
    Condition.WellFormed plan (.isNull expr)
  | isNotNull {expr : Term} (wellFormed : expr.WellFormed plan) :
    Condition.WellFormed plan (.isNotNull expr)
  | group {junction : Junction} {operands : List Condition}
    (each : Condition.AllWellFormed plan operands) :
    Condition.WellFormed plan (.group junction operands)
  | not {operand : Condition} (wellFormed : Condition.WellFormed plan operand) :
    Condition.WellFormed plan (.not operand)
  | existsIn {statements : List Statement} (body : Statement.BodyWellFormed plan statements) :
    Condition.WellFormed plan (.existsIn statements)

/-- Each operand is well formed. -/
inductive Condition.AllWellFormed (plan : Plan) : List Condition → Prop
  | nil : Condition.AllWellFormed plan []
  | cons {operand : Condition} {rest : List Condition}
    (first : Condition.WellFormed plan operand) (others : Condition.AllWellFormed plan rest) :
    Condition.AllWellFormed plan (operand :: rest)

/-- Every name of the statement is declared for its use, and all that it is made of is well
formed. -/
inductive Statement.WellFormed (plan : Plan) : Statement → Prop
  | create {node : String} {properties : List (String × Json)}
    (declared : plan.Declares .node node) (stored : Term.StoredWellFormed plan properties) :
    Statement.WellFormed plan (.create node properties)
  | matching {pattern : PatternUse} {optional : Bool} (wellFormed : pattern.WellFormed plan) :
    Statement.WellFormed plan (.matching pattern optional none)
  | matchingWhere {pattern : PatternUse} {optional : Bool} {condition : Condition}
    (wellFormed : pattern.WellFormed plan)
    (conditionWellFormed : Condition.WellFormed plan condition) :
    Statement.WellFormed plan (.matching pattern optional (some condition))
  | call {statements : List Statement} (body : Statement.BodyWellFormed plan statements) :
    Statement.WellFormed plan (.call statements)
  | withAll : Statement.WellFormed plan .withAll
  | withItems {items : List WithUse} (each : ∀ w ∈ items, w.WellFormed plan) :
    Statement.WellFormed plan (.withItems items)
  | set {target : String} {properties : List (String × Json)}
    (declared : plan.Declares .entity target) (stored : Term.StoredWellFormed plan properties) :
    Statement.WellFormed plan (.set target properties)
  | orderBy {items : List OrderUse} (each : ∀ o ∈ items, o.expr.WellFormed plan) :
    Statement.WellFormed plan (.orderBy items)
  | skip {param : String} (declared : plan.Declares .param param) :
    Statement.WellFormed plan (.skip param)
  | limit {param : String} (declared : plan.Declares .param param) :
    Statement.WellFormed plan (.limit param)
  | result {use : ReturnUse} (wellFormed : use.WellFormed plan) :
    Statement.WellFormed plan (.result use)

/-- A body, in which nothing follows a result. -/
inductive Statement.BodyWellFormed (plan : Plan) : List Statement → Prop
  | nil : Statement.BodyWellFormed plan []
  | cons {statement : Statement} {rest : List Statement}
    (last : statement.isResult = true → rest = [])
    (first : Statement.WellFormed plan statement)
    (others : Statement.BodyWellFormed plan rest) :
    Statement.BodyWellFormed plan (statement :: rest)

end

end Plan

/-- The tables have no name in common, and the statements make a well-formed body. -/
structure Plan.WellFormed (plan : Plan) : Prop where
  /-- No name is declared both for a parameter and for an entity. -/
  apart : ∀ name, plan.params.contains name = true → plan.entities.contains name = false
  /-- The statements are well formed, and nothing follows a result. -/
  body : Plan.Statement.BodyWellFormed plan plan.statements

namespace Plan

/-! ## Success -/

section Success

variable {α β : Type} {m : Compile α} {P : Prop}

/-- The compilation gives something. -/
def Succeeds (m : Compile α) : Prop :=
  ∃ a, m = .ok a

@[simp] theorem succeeds_ok (a : α) : Succeeds (.ok a : Compile α) :=
  ⟨a, rfl⟩

@[simp] theorem not_succeeds_error (why : Fault) : ¬Succeeds (.error why : Compile α) := by
  rintro ⟨a, ha⟩
  cases ha

/-- The second step may ask for more, whatever the first one gives. -/
theorem succeeds_bind {k : α → Compile β} (hk : ∀ a, m = .ok a → (Succeeds (k a) ↔ P)) :
    Succeeds (m >>= k) ↔ Succeeds m ∧ P := by
  cases hm : m with
  | error why =>
    constructor
    · rintro ⟨b, hb⟩
      cases hb
    · rintro ⟨h, _⟩
      exact absurd h (not_succeeds_error why)
  | ok a =>
    have h := hk a hm
    constructor
    · intro hb
      exact ⟨succeeds_ok a, h.mp hb⟩
    · rintro ⟨_, hp⟩
      exact h.mpr hp

theorem succeeds_map {k : α → β} : Succeeds (m >>= fun a => pure (k a)) ↔ Succeeds m := by
  have h := succeeds_bind (m := m) (k := fun a => pure (k a)) (P := True) fun a _ =>
    iff_of_true (succeeds_ok (k a)) trivial
  rw [h, and_true]

theorem succeeds_mapM {f : α → Compile β} {Q : α → Prop} (hf : ∀ a, Succeeds (f a) ↔ Q a)
    (items : List α) : Succeeds (items.mapM f) ↔ ∀ a ∈ items, Q a := by
  induction items with
  | nil => exact iff_of_true (succeeds_ok []) fun a ha => absurd ha List.not_mem_nil
  | cons item rest ih =>
    rw [List.mapM_cons, succeeds_bind fun _ _ => succeeds_map.trans ih, hf, List.forall_mem_cons]

end Success

/-! ## Lookups -/

namespace Scope.Of

variable {plan : Plan} {id : ArenaId} {s : Scope} (hs : Scope.Of plan id s) (name : String)

include hs

theorem succeeds_node : Succeeds (s.node name) ↔ plan.Declares .node name := by
  rw [Scope.node, hs.entity?_eq, Declares]
  rcases plan.entities.get? name with _ | _ | _ | _ <;> simp [EntityDecl.entity]

theorem succeeds_relationship :
    Succeeds (s.relationship name) ↔ plan.Declares .relationship name := by
  rw [Scope.relationship, hs.entity?_eq, Declares]
  rcases plan.entities.get? name with _ | _ | _ | _ <;> simp [EntityDecl.entity]

theorem succeeds_var : Succeeds (s.var name) ↔ plan.Declares .var name := by
  rw [Scope.var, hs.entity?_eq, Declares]
  rcases plan.entities.get? name with _ | _ | _ | _ <;> simp [EntityDecl.entity]

theorem succeeds_reference : Succeeds (s.reference name) ↔ plan.Declares .entity name := by
  rw [Scope.reference, hs.entity?_eq, Declares]
  cases plan.entities.get? name <;> simp

theorem succeeds_param : Succeeds (s.param name) ↔ plan.Declares .param name := by
  rw [hs.param_eq, Declares]
  cases plan.params.get? name <;> simp

end Scope.Of

/-! ## Terms -/

theorem succeeds_literal (value : Json) : Succeeds (literal value) ↔ Inline value := by
  cases value with
  | null => exact iff_of_true (succeeds_ok _) .null
  | bool b => exact iff_of_true (succeeds_ok _) (.bool b)
  | int n =>
    rw [literal]
    cases hn : Json.isWord n with
    | true =>
      refine iff_of_true (succeeds_ok _) ?_
      rw [Json.isWord, Word.fitsSigned, Bool.and_eq_true, decide_eq_true_eq,
        decide_eq_true_eq] at hn
      exact .int hn.1 hn.2
    | false =>
      refine iff_of_false (not_succeeds_error _) fun h => ?_
      cases h with
      | int lower upper =>
        rw [Json.isWord, Word.fitsSigned, Bool.and_eq_false_iff, decide_eq_false_iff_not,
          decide_eq_false_iff_not] at hn
        rcases hn with hn | hn
        · exact hn lower
        · exact hn upper
  | float x => exact iff_of_true (succeeds_ok _) (.float x)
  | _ => exact iff_of_false (not_succeeds_error _) (by rintro ⟨⟩)

theorem succeeds_applyNamed (function : String) (argument : Expr) :
    Succeeds (applyNamed function argument) ↔ function ∈ functionNames := by
  have hnames : functionNames = UnaryFunction.all.map UnaryFunction.name := rfl
  rw [applyNamed, UnaryFunction.ofName?, hnames]
  cases hfind : UnaryFunction.all.find? fun f => f.name == function with
  | some f =>
    refine iff_of_true (succeeds_ok _) (List.mem_map.mpr ⟨f, List.mem_of_find?_eq_some hfind, ?_⟩)
    simpa using List.find?_some hfind
  | none =>
    refine iff_of_false (not_succeeds_error _) fun hmem => ?_
    obtain ⟨f, hf, hname⟩ := List.mem_map.mp hmem
    exact List.find?_eq_none.mp hfind f hf (by simpa using hname)

/-- Whichever way its own source is compiled, a distance becomes a call. -/
theorem compileTerm_distance_eq_call {s : Scope} {source : Term} {point : String} {e : Expr}
    (h : compileTerm s (.distance source point) = .ok e) : ∃ f, e = .call f := by
  by_cases hsource : ∃ target key, source = .property target key
  · obtain ⟨target, key, rfl⟩ := hsource
    rw [compileTerm] at h
    obtain ⟨_, _, h⟩ := bind_eq_ok h
    obtain ⟨_, _, h⟩ := bind_eq_ok h
    exact ⟨_, (Except.ok.inj h).symm⟩
  · rw [compileTerm.eq_9 s source point fun t k ht => hsource ⟨t, k, ht⟩] at h
    obtain ⟨_, _, h⟩ := bind_eq_ok h
    obtain ⟨e', _, h⟩ := bind_eq_ok h
    unfold distanceFrom at h
    split at h
    · exact ⟨_, (Except.ok.inj h).symm⟩
    · cases h

/-- A compiled term can be the source of a distance when it is a call, and of the terms that are no
properties only those that can be a source become calls. -/
theorem succeeds_distanceFrom {s : Scope} {t : Term} {e : Expr} (point : Param)
    (h : compileTerm s t = .ok e) (ht : ∀ target key, t ≠ .property target key) :
    Succeeds (distanceFrom e point) ↔ t.isSource = true := by
  cases t with
  | property target key => exact absurd rfl (ht target key)
  -- names, values, lists and projections do not become calls
  | param | ref | literal | list =>
    rw [compileTerm] at h
    obtain ⟨_, _, h⟩ := bind_eq_ok h
    obtain rfl := Except.ok.inj h
    exact iff_of_false (not_succeeds_error _) Bool.false_ne_true
  | projection target fields entries =>
    rw [compileTerm] at h
    obtain ⟨_, _, h⟩ := bind_eq_ok h
    obtain ⟨_, _, h⟩ := bind_eq_ok h
    obtain rfl := Except.ok.inj h
    exact iff_of_false (not_succeeds_error _) Bool.false_ne_true
  -- what is left does
  | coalesce target key fallback =>
    rw [compileTerm] at h
    obtain ⟨_, _, h⟩ := bind_eq_ok h
    obtain ⟨_, _, h⟩ := bind_eq_ok h
    obtain rfl := Except.ok.inj h
    exact iff_of_true (succeeds_ok _) rfl
  | distance source p =>
    obtain ⟨f, rfl⟩ := compileTerm_distance_eq_call h
    exact iff_of_true (succeeds_ok _) rfl
  | call function argument =>
    rw [compileTerm] at h
    obtain ⟨_, _, h⟩ := bind_eq_ok h
    unfold applyNamed at h
    split at h
    · obtain rfl := Except.ok.inj h
      exact iff_of_true (succeeds_ok _) rfl
    · cases h

section Terms

variable {plan : Plan} {id : ArenaId} {s : Scope}

mutual

theorem succeeds_compileTerm (hs : Scope.Of plan id s) (t : Term) :
    Succeeds (compileTerm s t) ↔ t.WellFormed plan := by
  match t with
  | .param name =>
    rw [compileTerm, succeeds_map, hs.succeeds_param]
    exact ⟨.param, fun | .param declared => declared⟩
  | .ref name =>
    rw [compileTerm, succeeds_map, hs.succeeds_reference]
    exact ⟨.ref, fun | .ref declared => declared⟩
  | .property target key =>
    rw [compileTerm, succeeds_map, hs.succeeds_reference]
    exact ⟨.property, fun | .property declared => declared⟩
  | .literal value =>
    rw [compileTerm, succeeds_map, succeeds_literal]
    exact ⟨.literal, fun | .literal writable => writable⟩
  | .list items =>
    rw [compileTerm, succeeds_map, succeeds_compileTerms hs items]
    exact ⟨.list, fun | .list each => each⟩
  | .projection target fields entries =>
    rw [compileTerm, succeeds_bind fun _ _ => succeeds_map.trans (hs.succeeds_reference target),
      succeeds_compileStored hs entries]
    exact ⟨fun ⟨stored, declared⟩ => .projection declared stored,
      fun | .projection declared stored => ⟨stored, declared⟩⟩
  | .coalesce target key fallback =>
    rw [compileTerm, succeeds_bind fun _ _ => succeeds_map.trans
      (succeeds_compileTerm hs fallback), hs.succeeds_reference]
    exact ⟨fun ⟨declared, h⟩ => .coalesce declared h, fun | .coalesce declared h => ⟨declared, h⟩⟩
  | .distance source point =>
    have hsource := succeeds_compileTerm hs source
    -- a property is taken as it is, and any other source has to become a call
    by_cases hproperty : ∃ target key, source = .property target key
    · obtain ⟨target, key, rfl⟩ := hproperty
      rw [compileTerm, succeeds_bind fun _ _ => succeeds_map.trans (hs.succeeds_reference target),
        hs.succeeds_param]
      exact ⟨fun ⟨declared, h⟩ => .distance rfl declared (.property h),
        fun | .distance _ declared (.property h) => ⟨declared, h⟩⟩
    · have hproperty : ∀ target key, source ≠ .property target key := fun target key heq =>
        hproperty ⟨target, key, heq⟩
      rw [compileTerm.eq_9 s source point hproperty, succeeds_bind fun p _ =>
        succeeds_bind fun e he => succeeds_distanceFrom p he hproperty, hs.succeeds_param, hsource]
      exact ⟨fun ⟨declared, h, shape⟩ => .distance shape declared h,
        fun | .distance shape declared h => ⟨declared, h, shape⟩⟩
  | .call function argument =>
    rw [compileTerm, succeeds_bind fun a _ => succeeds_applyNamed function a,
      succeeds_compileTerm hs argument]
    exact ⟨fun ⟨h, known⟩ => .call known h, fun | .call known h => ⟨h, known⟩⟩
termination_by 2 * t.weight
decreasing_by all_goals (simp only [Term.weight]; omega)

theorem succeeds_compileTerms (hs : Scope.Of plan id s) (items : List Term) :
    Succeeds (compileTerms s items) ↔ Term.AllWellFormed plan items := by
  match items with
  | [] =>
    rw [compileTerms]
    exact iff_of_true (succeeds_ok _) .nil
  | item :: rest =>
    rw [compileTerms, succeeds_bind fun _ _ => succeeds_map.trans (succeeds_compileTerms hs rest),
      succeeds_compileTerm hs item]
    exact ⟨fun ⟨first, others⟩ => .cons first others,
      fun | .cons first others => ⟨first, others⟩⟩
termination_by 2 * Term.weights items + 1
decreasing_by
  · have := item.weight_pos
    simp only [Term.weights]; omega
  · simp only [Term.weights]; omega

theorem succeeds_compileStored (hs : Scope.Of plan id s) (entries : List (String × Json)) :
    Succeeds (compileStored s entries) ↔ Term.StoredWellFormed plan entries := by
  match entries with
  | [] =>
    rw [compileStored]
    exact iff_of_true (succeeds_ok _) .nil
  | (key, value) :: rest =>
    match ht : Term.ofJson value with
    | .error why =>
      rw [compileStored_of_error ht]
      refine iff_of_false (not_succeeds_error _) fun h => ?_
      cases h with
      | cons as_term _ _ => exact absurd (ht.symm.trans as_term) (by rintro ⟨⟩)
    | .ok t =>
      rw [compileStored_of_ok ht, succeeds_bind fun _ _ =>
        succeeds_map.trans (succeeds_compileStored hs rest), succeeds_compileTerm hs t]
      constructor
      · rintro ⟨first, others⟩
        exact .cons ht first others
      · intro h
        cases h with
        | cons as_term first others =>
          obtain rfl := Except.ok.inj (ht.symm.trans as_term)
          exact ⟨first, others⟩
termination_by 2 * Json.nodesOfMembers entries + 1
decreasing_by
  · have := value.nodes_pos
    simp only [Json.nodesOfMembers]; omega
  · have := Term.weight_ofJson ht
    simp only [Json.nodesOfMembers]; omega

end

end Terms

/-! ## Patterns, items and results -/

section Parts

variable {plan : Plan} {id : ArenaId} {s : Scope} (hs : Scope.Of plan id s)

include hs

theorem succeeds_compileNode (n : NodeUse) :
    Succeeds (compileNode s n) ↔ plan.Declares .node n.node := by
  rw [compileNode, succeeds_map, hs.succeeds_node]

theorem succeeds_compileHop (h : HopUse) : Succeeds (compileHop s h) ↔ h.WellFormed plan := by
  rw [compileHop, succeeds_bind fun _ _ => succeeds_map.trans (succeeds_compileNode hs h.target),
    hs.succeeds_relationship]
  exact ⟨fun ⟨r, t⟩ => ⟨r, t⟩, fun ⟨r, t⟩ => ⟨r, t⟩⟩

theorem succeeds_compilePattern (p : PatternUse) :
    Succeeds (compilePattern s p) ↔ p.WellFormed plan := by
  rw [compilePattern, succeeds_bind fun _ _ => succeeds_map.trans
    (succeeds_mapM (succeeds_compileHop hs) p.hops), succeeds_compileNode hs]
  exact ⟨fun ⟨n, h⟩ => ⟨n, h⟩, fun ⟨n, h⟩ => ⟨n, h⟩⟩

theorem succeeds_compileWith (w : WithUse) :
    Succeeds (compileWith s w) ↔ w.WellFormed plan := by
  obtain ⟨expr, aliasName⟩ := w
  have hexpr := succeeds_compileTerm hs expr
  cases aliasName with
  | none =>
    have h : Succeeds (compileWith s ⟨expr, none⟩) ↔ expr.WellFormed plan :=
      succeeds_map.trans hexpr
    rw [h]
    exact ⟨fun e => ⟨e, by rintro _ ⟨⟩⟩, fun ⟨e, _⟩ => e⟩
  | some name =>
    have h : Succeeds (compileWith s ⟨expr, some name⟩)
        ↔ Succeeds (compileTerm s expr) ∧ plan.Declares .var name :=
      succeeds_bind fun _ _ => succeeds_map.trans (hs.succeeds_var name)
    rw [h, hexpr]
    exact ⟨fun ⟨e, v⟩ => ⟨e, by rintro _ ⟨⟩; exact v⟩, fun ⟨e, v⟩ => ⟨e, v name rfl⟩⟩

theorem succeeds_compileOrder (o : OrderUse) :
    Succeeds (compileOrder s o) ↔ o.expr.WellFormed plan := by
  rw [compileOrder, succeeds_map, succeeds_compileTerm hs]

/-- What is asked of the first half of a result. -/
theorem succeeds_compileTarget (r : ReturnUse) :
    Succeeds (compileTarget s r) ↔ (r.entity = none ∨ r.expr = none)
      ∧ (r.entity = none → r.fields = [])
      ∧ (∀ name, r.entity = some name → plan.Declares .entity name)
      ∧ ∀ t, r.expr = some t → t.WellFormed plan := by
  obtain ⟨entity, fields, expr, aliasName, aliasVariable⟩ := r
  rcases entity with _ | name <;> rcases expr with _ | t
  · cases fields with
    | nil => exact iff_of_true (succeeds_ok _) (by simp)
    | cons _ _ => exact iff_of_false (not_succeeds_error _) (by simp)
  · cases fields with
    | nil =>
      have hterm : Succeeds (compileTarget s ⟨none, [], some t, aliasName, aliasVariable⟩)
          ↔ t.WellFormed plan := succeeds_map.trans (succeeds_compileTerm hs t)
      rw [hterm]
      simp
    | cons _ _ => exact iff_of_false (not_succeeds_error _) (by simp)
  · have hentity : Succeeds (compileTarget s ⟨some name, fields, none, aliasName, aliasVariable⟩)
        ↔ plan.Declares .entity name := succeeds_map.trans (hs.succeeds_reference name)
    rw [hentity]
    simp
  · exact iff_of_false (not_succeeds_error _) (by simp)

/-- What is asked of the second half. -/
theorem succeeds_compileAlias (r : ReturnUse) :
    Succeeds (compileAlias s r) ↔ (r.aliasName = none ∨ r.aliasVariable = none)
      ∧ ∀ name, r.aliasVariable = some name → plan.Declares .var name := by
  obtain ⟨entity, fields, expr, aliasName, aliasVariable⟩ := r
  rcases aliasName with _ | text <;> rcases aliasVariable with _ | name
  · exact iff_of_true (succeeds_ok _) (by simp)
  · have hvar : Succeeds (compileAlias s ⟨entity, fields, expr, none, some name⟩)
        ↔ plan.Declares .var name := succeeds_map.trans (hs.succeeds_var name)
    rw [hvar]
    simp
  · exact iff_of_true (succeeds_ok _) (by simp)
  · exact iff_of_false (not_succeeds_error _) (by simp)

theorem succeeds_compileResult (r : ReturnUse) :
    Succeeds (compileResult s r) ↔ r.WellFormed plan := by
  rw [compileResult, succeeds_bind fun _ _ => succeeds_map.trans (succeeds_compileAlias hs r),
    succeeds_compileTarget hs]
  constructor
  · rintro ⟨⟨hone, hfields, hentity, hexpr⟩, halias, hvar⟩
    exact ⟨hone, hfields, halias, hentity, hexpr, hvar⟩
  · rintro ⟨hone, hfields, halias, hentity, hexpr, hvar⟩
    exact ⟨⟨hone, hfields, hentity, hexpr⟩, halias, hvar⟩

end Parts

/-! ## Conditions and statements -/

section Statements

variable {plan : Plan} {id : ArenaId} {s : Scope}

mutual

theorem succeeds_compileCondition (hs : Scope.Of plan id s) (c : Condition) :
    Succeeds (compileCondition s c) ↔ c.WellFormed plan := by
  match c with
  | .compare operator lhs rhs =>
    rw [compileCondition, succeeds_bind fun _ _ => succeeds_map.trans
      (succeeds_compileTerm hs rhs), succeeds_compileTerm hs]
    exact ⟨fun ⟨left, right⟩ => .compare left right, fun | .compare left right => ⟨left, right⟩⟩
  | .isNull expr =>
    rw [compileCondition, succeeds_map, succeeds_compileTerm hs]
    exact ⟨.isNull, fun | .isNull h => h⟩
  | .isNotNull expr =>
    rw [compileCondition, succeeds_map, succeeds_compileTerm hs]
    exact ⟨.isNotNull, fun | .isNotNull h => h⟩
  | .group junction operands =>
    rw [compileCondition, succeeds_map, succeeds_compileConditions hs operands]
    exact ⟨.group, fun | .group each => each⟩
  | .not operand =>
    rw [compileCondition, succeeds_map, succeeds_compileCondition hs operand]
    exact ⟨.not, fun | .not h => h⟩
  | .existsIn statements =>
    rw [compileCondition, succeeds_map, succeeds_compileStatements hs 0 statements]
    exact ⟨.existsIn, fun | .existsIn body => body⟩

theorem succeeds_compileConditions (hs : Scope.Of plan id s) (operands : List Condition) :
    Succeeds (compileConditions s operands) ↔ Condition.AllWellFormed plan operands := by
  match operands with
  | [] => exact iff_of_true (succeeds_ok _) .nil
  | operand :: rest =>
    rw [compileConditions, succeeds_bind fun _ _ => succeeds_map.trans
      (succeeds_compileConditions hs rest), succeeds_compileCondition hs operand]
    exact ⟨fun ⟨first, others⟩ => .cons first others,
      fun | .cons first others => ⟨first, others⟩⟩

theorem succeeds_compileStatement (hs : Scope.Of plan id s) (st : Statement) :
    Succeeds (compileStatement s st) ↔ st.WellFormed plan := by
  match st with
  | .create node properties =>
    rw [compileStatement, succeeds_bind fun _ _ => succeeds_map.trans
      (succeeds_compileStored hs properties), hs.succeeds_node]
    exact ⟨fun ⟨declared, stored⟩ => .create declared stored,
      fun | .create declared stored => ⟨declared, stored⟩⟩
  | .matching pattern optional none =>
    rw [compileStatement, succeeds_map, succeeds_compilePattern hs]
    exact ⟨.matching, fun | .matching h => h⟩
  | .matching pattern optional (some condition) =>
    rw [compileStatement, succeeds_bind fun _ _ => succeeds_map.trans
      (succeeds_compileCondition hs condition), succeeds_compilePattern hs]
    exact ⟨fun ⟨h, hc⟩ => .matchingWhere h hc, fun | .matchingWhere h hc => ⟨h, hc⟩⟩
  | .call statements =>
    rw [compileStatement, succeeds_map, succeeds_compileStatements hs 0 statements]
    exact ⟨.call, fun | .call body => body⟩
  | .withAll => exact iff_of_true (succeeds_ok _) .withAll
  | .withItems items =>
    rw [compileStatement, succeeds_map, succeeds_mapM (succeeds_compileWith hs)]
    exact ⟨.withItems, fun | .withItems each => each⟩
  | .set target properties =>
    rw [compileStatement, succeeds_bind fun _ _ => succeeds_map.trans
      (succeeds_compileStored hs properties), hs.succeeds_reference]
    exact ⟨fun ⟨declared, stored⟩ => .set declared stored,
      fun | .set declared stored => ⟨declared, stored⟩⟩
  | .orderBy items =>
    rw [compileStatement, succeeds_map, succeeds_mapM (succeeds_compileOrder hs)]
    exact ⟨.orderBy, fun | .orderBy each => each⟩
  | .skip param =>
    rw [compileStatement, succeeds_map, hs.succeeds_param]
    exact ⟨.skip, fun | .skip declared => declared⟩
  | .limit param =>
    rw [compileStatement, succeeds_map, hs.succeeds_param]
    exact ⟨.limit, fun | .limit declared => declared⟩
  | .result use =>
    rw [compileStatement, succeeds_map, succeeds_compileResult hs]
    exact ⟨.result, fun | .result h => h⟩

/-- How many statements came before makes no difference to success. -/
theorem succeeds_compileStatements (hs : Scope.Of plan id s) (index : Nat)
    (statements : List Statement) :
    Succeeds (compileStatements s index statements) ↔ Statement.BodyWellFormed plan statements := by
  match statements with
  | [] => exact iff_of_true (succeeds_ok _) .nil
  | statement :: rest =>
    have hfirst := succeeds_compileStatement hs statement
    have hrest := succeeds_compileStatements hs (index + 1) rest
    rw [compileStatements]
    split
    · -- a result with something behind it
      rename_i hearly
      rw [Bool.and_eq_true, Bool.not_eq_true', List.isEmpty_eq_false_iff] at hearly
      refine iff_of_false (not_succeeds_error _) fun h => ?_
      cases h with
      | cons last _ _ => exact hearly.2 (last hearly.1)
    · rename_i hlast
      have hlast : statement.isResult = true → rest = [] := by
        intro hresult
        simpa [hresult] using hlast
      rw [succeeds_bind fun _ _ => succeeds_map.trans hrest, hfirst]
      exact ⟨fun ⟨first, others⟩ => .cons hlast first others,
        fun | .cons _ first others => ⟨first, others⟩⟩

end

end Statements

/-! ## Plans -/

/-- A name for both an entity and a parameter is all that a scope can fail for. -/
theorem succeeds_declare (plan : Plan) (id : ArenaId) :
    Succeeds (declare plan id)
      ↔ ∀ name, plan.params.contains name = true → plan.entities.contains name = false := by
  have hfind : (plan.params.sorted.find? fun entry => plan.entities.contains entry.1) = none
      ↔ ∀ name, plan.params.contains name = true → plan.entities.contains name = false := by
    rw [List.find?_eq_none]
    constructor
    · intro h name hname
      obtain ⟨entry, hentry, heq⟩ := List.any_eq_true.mp hname
      rw [← of_decide_eq_true heq, ← Bool.not_eq_true]
      exact h entry (plan.params.sorted_perm.mem_iff.mpr hentry)
    · intro h entry hentry
      rw [Bool.not_eq_true]
      refine h entry.1 (List.any_eq_true.mpr ⟨entry, ?_, decide_eq_true rfl⟩)
      exact plan.params.sorted_perm.mem_iff.mp hentry
  rw [← hfind]
  unfold declare
  simp only []
  split
  · rename_i hsome
    exact iff_of_false (not_succeeds_error _) (by rw [hsome]; rintro ⟨⟩)
  · rename_i hnone
    exact iff_of_true (succeeds_ok _) hnone

/-- **Exactly the well-formed plans compile.** -/
theorem compiles_iff_wellFormed (plan : Plan) (id : ArenaId) :
    (∃ c, plan.compile id = .ok c) ↔ plan.WellFormed := by
  have hbody : ∀ declared, declare plan id = .ok declared →
      (Succeeds (do
          let clauses ← compileStatements declared.1 0 plan.statements
          return (⟨declared.2, ⟨clauses⟩⟩ : Compiled) : Compile Compiled)
        ↔ Statement.BodyWellFormed plan plan.statements) := by
    rintro ⟨s, a⟩ hdeclare
    exact succeeds_map.trans (succeeds_compileStatements (declare_of hdeclare) 0 plan.statements)
  have hboth : Succeeds (plan.compile id) ↔ _ := succeeds_bind hbody
  rw [succeeds_declare] at hboth
  exact hboth.trans ⟨fun ⟨apart, body⟩ => ⟨apart, body⟩, fun ⟨apart, body⟩ => ⟨apart, body⟩⟩

end Plan

end GraphQuery
