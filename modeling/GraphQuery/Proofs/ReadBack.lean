import GraphQuery.Plan.Written
import GraphQuery.Proofs.PlanNames

/-!
# Reading a query back

A compiled plan is a query in which references have taken the place of names. To read it back is to
put the names in again. The arena hands out its references in the order of the declarations, so the
number of a reference says under which name it was declared. What is read back is a list of
statements, or nothing: a query that no plan compiles to, such as one with a map of expressions, or
one that mentions what was never declared, has no reading.

Values of properties and of projection entries are not expressions in a plan but JSON, and the same
expression can be written there in more ways than one. Two plans can therefore only be compared once
each such value has been put into the one written form of the expression that it decodes to, which
is its canonical form. Nothing is lost there, as different expressions have different written forms.
-/

namespace GraphQuery.Plan

/-! ## Written forms -/

theorem texts_injective {names names' : List String} (h : texts names = texts names') :
    names = names' :=
  List.map_injective_iff.mpr (fun _ _ => Json.str.inj) (Json.arr.inj h)

mutual

/-- Different expressions have different written forms. -/
theorem Term.eq_of_toJson {t t' : Term} (h : t.toJson = t'.toJson) : t = t' := by
  cases t <;> cases t' <;> simp [Term.toJson, choice] at h
  case param.param => rw [h]
  case ref.ref => rw [h]
  case property.property => rw [h.1, h.2]
  case literal.literal => rw [h]
  case list.list items items' => rw [Term.eq_of_toJsons h]
  case projection.projection => rw [h.1, texts_injective h.2.1, h.2.2]
  case coalesce.coalesce => rw [h.1, h.2.1, Term.eq_of_toJson h.2.2]
  case distance.distance => rw [Term.eq_of_toJson h.1, h.2]
  case call.call => rw [h.1, Term.eq_of_toJson h.2]

theorem Term.eq_of_toJsons {items items' : List Term}
    (h : Term.toJsons items = Term.toJsons items') : items = items' := by
  match items, items' with
  | [], [] => rfl
  | [], _ :: _ => simp [Term.toJsons] at h
  | _ :: _, [] => simp [Term.toJsons] at h
  | item :: rest, item' :: rest' =>
    simp [Term.toJsons] at h
    rw [Term.eq_of_toJson h.1, Term.eq_of_toJsons h.2]

end

/-! ## Canonical statements -/

mutual

/-- The term with each stored value in the written form of what it decodes to. -/
def Term.canonical (t : Term) : Term :=
  match t with
  | .param name => .param name
  | .ref name => .ref name
  | .property target key => .property target key
  | .literal value => .literal value
  | .list items => .list (Term.canonicalItems items)
  | .projection target fields entries => .projection target fields (Term.canonicalStored entries)
  | .coalesce target key fallback => .coalesce target key fallback.canonical
  | .distance source point => .distance source.canonical point
  | .call function argument => .call function argument.canonical
termination_by 2 * t.weight
decreasing_by all_goals (simp only [Term.weight]; omega)

/-- The terms of a list, each in its canonical form. -/
def Term.canonicalItems (items : List Term) : List Term :=
  match items with
  | [] => []
  | item :: rest => item.canonical :: Term.canonicalItems rest
termination_by 2 * Term.weights items + 1
decreasing_by
  · simp only [Term.weights]; omega
  · have := item.weight_pos
    simp only [Term.weights]; omega

/-- A value that is no expression stays as it is. -/
def Term.canonicalStored (entries : List (String × Json)) : List (String × Json) :=
  match entries with
  | [] => []
  | (key, value) :: rest =>
    match _ : Term.ofJson value with
    | .error _ => (key, value) :: Term.canonicalStored rest
    | .ok t => (key, t.canonical.toJson) :: Term.canonicalStored rest
termination_by 2 * Json.nodesOfMembers entries + 1
decreasing_by
  · have := value.nodes_pos
    simp only [Json.nodesOfMembers]; omega
  · have := Term.weight_ofJson ‹_›
    simp only [Json.nodesOfMembers]; omega
  · have := value.nodes_pos
    simp only [Json.nodesOfMembers]; omega

end

theorem Term.canonicalStored_cons {key : String} {value : Json} {rest : List (String × Json)}
    {t : Term} (ht : Term.ofJson value = .ok t) :
    Term.canonicalStored ((key, value) :: rest)
      = (key, t.canonical.toJson) :: Term.canonicalStored rest := by
  rw [Term.canonicalStored]
  split
  · exact absurd (ht.symm.trans ‹_›) (by rintro ⟨⟩)
  · rw [Except.ok.inj (ht.symm.trans ‹_›)]

/-- A carried expression in its canonical form, under the same variable. -/
def WithUse.canonical (use : WithUse) : WithUse :=
  ⟨use.expr.canonical, use.aliasName⟩

/-- A sort key in its canonical form, in the same order. -/
def OrderUse.canonical (use : OrderUse) : OrderUse :=
  ⟨use.expr.canonical, use.direction⟩

/-- A result with its expression in canonical form, if it has one. -/
def ReturnUse.canonical (use : ReturnUse) : ReturnUse :=
  { use with expr := use.expr.map Term.canonical }

mutual

/-- A condition with its terms in canonical form, those of its subqueries too. -/
def Condition.canonical : Condition → Condition
  | .compare operator lhs rhs => .compare operator lhs.canonical rhs.canonical
  | .isNull expr => .isNull expr.canonical
  | .isNotNull expr => .isNotNull expr.canonical
  | .group junction operands => .group junction (Condition.canonicalAll operands)
  | .not operand => .not operand.canonical
  | .existsIn statements => .existsIn (Statement.canonicalAll statements)

/-- Operands, each in its canonical form. -/
def Condition.canonicalAll : List Condition → List Condition
  | [] => []
  | operand :: rest => operand.canonical :: Condition.canonicalAll rest

/-- A statement in its canonical form: only terms and stored values can change. -/
def Statement.canonical : Statement → Statement
  | .create node properties => .create node (Term.canonicalStored properties)
  | .matching pattern optional none => .matching pattern optional none
  | .matching pattern optional (some condition) =>
    .matching pattern optional (some condition.canonical)
  | .call statements => .call (Statement.canonicalAll statements)
  | .withAll => .withAll
  | .withItems items => .withItems (items.map WithUse.canonical)
  | .set target properties => .set target (Term.canonicalStored properties)
  | .orderBy items => .orderBy (items.map OrderUse.canonical)
  | .skip param => .skip param
  | .limit param => .limit param
  | .result use => .result use.canonical

/-- Statements, each in its canonical form. -/
def Statement.canonicalAll : List Statement → List Statement
  | [] => []
  | statement :: rest => statement.canonical :: Statement.canonicalAll rest

end

/-! ## Mentions -/

/-- What a query has in the place of a name. -/
inductive Mention
  | node (target : NodeRef)
  | relationship (target : RelationshipRef)
  | var (target : VariableRef)
  | ref (target : Reference)
  | param (target : Param)

/-- The identity behind a mention, whatever kind of thing is mentioned. -/
def Mention.id : Mention → RefId
  | node n => n.id
  | relationship r => r.id
  | var v => v.id
  | ref r => r.id
  | param p => p.id

/-- What names to put in. -/
abbrev Reading := Mention → Option String

/-- Whether this is what the arena hands out for the declaration. -/
def EntityDecl.makes : EntityDecl → Mention → Bool
  | .node labels, .node n => n.labels = labels
  | .relationship type, .relationship r => r.type = type
  | .var, .var _ => true
  | .node _, .ref r => r.kind = .node
  | .relationship _, .ref r => r.kind = .relationship
  | .var, .ref r => r.kind = .var
  | _, _ => false

/-- Whether this is the parameter the arena hands out for the declaration. The value is not looked
at, since no name depends on it. -/
def ParamDecl.makes (decl : ParamDecl) : Mention → Bool
  | .param p => p.isPoint = decl.isPoint
  | _ => false

/-- The declared names in the order in which the arena hands out references for them, and which
references those are. -/
def makers (plan : Plan) : List (String × (Mention → Bool)) :=
  plan.entities.sorted.map (fun entry => (entry.1, entry.2.makes))
    ++ plan.params.sorted.map fun entry => (entry.1, entry.2.makes)

/-- The name that was declared for this mention. -/
def nameOf (plan : Plan) (id : ArenaId) : Reading := fun m =>
  if m.id.arena = id then
    match plan.makers[m.id.index]? with
    | some (name, makes) => if makes m then some name else none
    | none => none
  else none

/-- These names are put in where compiling takes them out. -/
structure Scope.Spells (names : Reading) (s : Scope) : Prop where
  node : ∀ {name n}, s.node name = .ok n → names (.node n) = some name
  relationship : ∀ {name r}, s.relationship name = .ok r → names (.relationship r) = some name
  var : ∀ {name v}, s.var name = .ok v → names (.var v) = some name
  reference : ∀ {name r}, s.reference name = .ok r → names (.ref r) = some name
  param : ∀ {name p}, s.param name = .ok p → names (.param p) = some name

section Names

variable {plan : Plan} {id : ArenaId} {s : Scope} {m m' : Mention} {name name' : String}

/-- The makers are listed as the index is. -/
theorem Scope.Of.names_makers (hs : Scope.Of plan id s) :
    s.ids.map Prod.fst = plan.makers.map Prod.fst := by
  rw [hs.names_eq, makers, List.map_append, List.map_map, List.map_map]
  rfl

/-- A name stands at the number of its reference. -/
theorem makers_idOf (hd : Declared plan id s) (hs : Scope.Of plan id s)
    {makes : Mention → Bool} (hm : (name, makes) ∈ plan.makers) :
    (s.idOf name).arena = id ∧ plan.makers[(s.idOf name).index]? = some (name, makes) := by
  obtain ⟨k, hk⟩ := List.mem_iff_getElem?.mp hm
  have hname : (s.ids.map Prod.fst)[k]? = some name := by
    rw [hs.names_makers, List.getElem?_map, hk]
    rfl
  rw [List.getElem?_map] at hname
  obtain ⟨entry, hentry, rfl⟩ := Option.map_eq_some_iff.mp hname
  -- what stands there in the index was handed out in this turn
  have hissued : ((issuedBy id plan.handouts).map Visit.id)[k]? = some entry.2 := by
    rw [← hd.ids_eq, List.getElem?_map, hentry]
    rfl
  rw [List.getElem?_map] at hissued
  obtain ⟨v, hv, hid⟩ := Option.map_eq_some_iff.mp hissued
  rw [hs.idOf_eq (List.mem_of_getElem? hentry), ← hid, Arena.id_of_getElem?_issueAll _ hv]
  refine ⟨rfl, ?_⟩
  rw [← hk]
  exact congrArg (plan.makers[·]?) (Nat.zero_add k)

theorem nameOf_eq (hd : Declared plan id s) (hs : Scope.Of plan id s) {makes : Mention → Bool}
    (hm : (name, makes) ∈ plan.makers) (hid : m.id = s.idOf name) (hmakes : makes m = true) :
    plan.nameOf id m = some name := by
  obtain ⟨harena, hat⟩ := makers_idOf hd hs hm
  simp only [nameOf, hid, harena, hat, hmakes, if_true]

/-- The name of an entity is put in for whatever the declaration makes. -/
theorem nameOf_entity (hd : Declared plan id s) (hs : Scope.Of plan id s) {e : Entity}
    (he : s.entity? name = some e)
    (hm : ∀ (d : EntityDecl) (i : RefId), d.entity i = e → m.id = i ∧ d.makes m = true) :
    plan.nameOf id m = some name := by
  rw [hs.entity?_eq] at he
  obtain ⟨d, hget, he⟩ := Option.map_eq_some_iff.mp he
  have hmem := plan.entities.sorted_perm.mem_iff.mpr (Table.mem_of_get? hget)
  obtain ⟨hid, hmakes⟩ := hm d _ he
  exact nameOf_eq hd hs (List.mem_append_left _ (List.mem_map.mpr ⟨_, hmem, rfl⟩)) hid hmakes

theorem nameOf_param (hd : Declared plan id s) (hs : Scope.Of plan id s) {p : Param}
    (hp : s.param name = .ok p) : plan.nameOf id (.param p) = some name := by
  obtain ⟨d, hget, rfl⟩ := hs.get?_of_param hp
  have hmem := plan.params.sorted_perm.mem_iff.mpr (Table.mem_of_get? hget)
  refine nameOf_eq hd hs (List.mem_append_right _ (List.mem_map.mpr ⟨_, hmem, rfl⟩)) rfl ?_
  exact decide_eq_true rfl

/-- Compiling takes out the names that are put in again. -/
theorem spells_nameOf (hd : Declared plan id s) (hs : Scope.Of plan id s) :
    s.Spells (plan.nameOf id) := by
  constructor
  · -- a node is only found where a node was declared, and so for the other kinds
    intro name n hn
    refine nameOf_entity hd hs (Scope.entity?_of_node hn) fun d i he => ?_
    cases d with
    | node labels =>
      obtain rfl := Entity.node.inj he
      exact ⟨rfl, decide_eq_true rfl⟩
    | relationship type => cases he
    | var => cases he
  · intro name r hr
    refine nameOf_entity hd hs (Scope.entity?_of_relationship hr) fun d i he => ?_
    cases d with
    | node labels => cases he
    | relationship type =>
      obtain rfl := Entity.relationship.inj he
      exact ⟨rfl, decide_eq_true rfl⟩
    | var => cases he
  · intro name v hv
    refine nameOf_entity hd hs (Scope.entity?_of_var hv) fun d i he => ?_
    cases d with
    | node labels => cases he
    | relationship type => cases he
    | var =>
      obtain rfl := Entity.var.inj he
      exact ⟨rfl, rfl⟩
  · -- asked for any entity, each kind will do
    intro name r hr
    obtain ⟨e, he, rfl⟩ := Scope.entity?_of_reference hr
    refine nameOf_entity hd hs he fun d i he => ?_
    subst he
    cases d <;> exact ⟨rfl, rfl⟩
  · intro name p hp
    exact nameOf_param hd hs hp

/-- The name of a mention stands at its number. -/
theorem getElem?_of_nameOf (h : plan.nameOf id m = some name) :
    m.id.arena = id ∧ (plan.makers.map Prod.fst)[m.id.index]? = some name := by
  unfold nameOf at h
  split at h
  · rename_i harena
    refine ⟨harena, ?_⟩
    rw [List.getElem?_map]
    cases hmaker : plan.makers[m.id.index]? with
    | none =>
      rw [hmaker] at h
      cases h
    | some maker =>
      rw [hmaker] at h
      dsimp only at h
      split at h
      · exact h
      · cases h
  · cases h

/-- A name is declared once, and a reference is handed out for one name. -/
theorem id_eq_iff_name_eq (hs : Scope.Of plan id s) (hm : plan.nameOf id m = some name)
    (hm' : plan.nameOf id m' = some name') : m.id = m'.id ↔ name = name' := by
  have hnodup : (plan.makers.map Prod.fst).Nodup := by
    rw [← hs.names_makers]
    exact hs.nodup_names
  obtain ⟨harena, hname⟩ := getElem?_of_nameOf hm
  obtain ⟨harena', hname'⟩ := getElem?_of_nameOf hm'
  constructor
  · -- at one number stands one name
    intro hid
    rw [hid] at hname
    exact Option.some.inj (hname.symm.trans hname')
  · -- and no name stands at two
    rintro rfl
    refine RefId.eq_of_index (harena.trans harena'.symm) ?_
    have hlt := (List.getElem?_eq_some_iff.mp hname).1
    exact (List.getElem?_inj hlt hnodup).mp (hname.trans hname'.symm)

end Names

end Plan

/-! ## Expressions -/

open Plan

/-- A literal as the inline value of a plan. -/
def Literal.toJson : Literal → Json
  | null => .null
  | bool b => .bool b
  | int n => .int n
  | float x => .float x

mutual

/-- The term that an expression was compiled from, in the names of the plan. A map of expressions
comes from none. -/
def Expr.readBack (names : Reading) : Expr → Option Term
  | .literal value => some (.literal value.toJson)
  | .param p => return .param (← names (.param p))
  | .ref target => return .ref (← names (.ref target))
  | .property target key => return .property (← names (.ref target)) key
  | .call f => f.readBack names
  | .list items => return .list (← Expr.readItems names items)
  | .map _ => none
  | .projection target fields => do
    let target ← names (.ref target)
    let (fields, entries) ← Expr.readFields names fields
    return .projection target fields entries

/-- The term of a call. Functions of one argument are called by their name. -/
def FunctionCall.readBack (names : Reading) : FunctionCall → Option Term
  | .coalesce target key fallback => do
    let target ← names (.ref target)
    let fallback ← fallback.readBack names
    return .coalesce target key fallback
  | .distance source point => do
    let source ← source.readBack names
    let point ← names (.param point)
    return .distance source point
  | .apply f argument => return .call f.name (← argument.readBack names)

/-- The term of what a distance is measured from. -/
def DistanceSource.readBack (names : Reading) : DistanceSource → Option Term
  | .property target key => return .property (← names (.ref target)) key
  | .call f => f.readBack names

/-- The terms of some expressions, if each has one. -/
def Expr.readItems (names : Reading) : List Expr → Option (List Term)
  | [] => some []
  | item :: rest => do
    let item ← item.readBack names
    let others ← Expr.readItems names rest
    return item :: others

/-- Shorthands are fields, and what comes after them has to be entries. -/
def Expr.readFields (names : Reading) :
    List ProjectionField → Option (List String × List (String × Json))
  | [] => some ([], [])
  | .shorthand key :: rest => do
    let (fields, entries) ← Expr.readFields names rest
    return (key :: fields, entries)
  | .entry key value :: rest => do
    let value ← value.readBack names
    let ([], entries) ← Expr.readFields names rest | none
    return ([], (key, value.toJson) :: entries)

end

/-- Expressions of properties, as they are stored in a plan. -/
def readProperties (names : Reading) : List (String × Expr) → Option (List (String × Json))
  | [] => some []
  | (key, value) :: rest => do
    let value ← value.readBack names
    let others ← readProperties names rest
    return (key, value.toJson) :: others

/-! ## Clauses -/

/-- The node of a pattern, in the names of the plan. -/
def NodePattern.readBack (names : Reading) (p : NodePattern) : Option NodeUse :=
  return ⟨← names (.node p.node), p.withLabels⟩

/-- A step of a pattern, in the names of the plan. -/
def Hop.readBack (names : Reading) (h : Hop) : Option HopUse := do
  let relationship ← names (.relationship h.relationship)
  let target ← h.target.readBack names
  return ⟨relationship, h.direction, h.named, target⟩

/-- A pattern, in the names of the plan. -/
def Pattern.readBack (names : Reading) (p : Pattern) : Option PatternUse := do
  let start ← p.start.readBack names
  let hops ← p.hops.mapM (Hop.readBack names)
  return ⟨start, hops⟩

/-- A carried expression and its variable, in the names of the plan. -/
def WithItem.readBack (names : Reading) (item : WithItem) : Option WithUse := do
  let expr ← item.expr.readBack names
  match item.aliasVariable with
  | none => return ⟨expr, none⟩
  | some v => return ⟨expr, some (← names (.var v))⟩

/-- A sort key, in the names of the plan. -/
def OrderItem.readBack (names : Reading) (item : OrderItem) : Option OrderUse :=
  return ⟨← item.expr.readBack names, item.direction⟩

/-- What is returned, without its alias. -/
def ReturnTarget.readBack (names : Reading) : ReturnTarget → Option ReturnUse
  | .entity target fields => return ⟨some (← names (.ref target)), fields, none, none, none⟩
  | .expr e => return ⟨none, [], some (← e.readBack names), none, none⟩
  | .all => some ⟨none, [], none, none, none⟩

/-- A result, with its output name put where the plan has it. -/
def Result.readBack (names : Reading) (r : Result) : Option ReturnUse := do
  let use ← r.target.readBack names
  match r.outputName with
  | none => return use
  | some (.name text) => return { use with aliasName := some text }
  | some (.var v) => return { use with aliasVariable := some (← names (.var v)) }

mutual

/-- The condition that a predicate was compiled from. -/
def Predicate.readBack (names : Reading) : Predicate → Option Condition
  | .compare operator lhs rhs => do
    let lhs ← lhs.readBack names
    let rhs ← rhs.readBack names
    return .compare operator lhs rhs
  | .isNull e => return .isNull (← e.readBack names)
  | .isNotNull e => return .isNotNull (← e.readBack names)
  | .group junction operands => return .group junction (← Predicate.readOperands names operands)
  | .not operand => return .not (← operand.readBack names)
  | .existsIn body => return .existsIn (← Clause.readBody names body)

/-- The conditions of some operands, if each has one. -/
def Predicate.readOperands (names : Reading) : List Predicate → Option (List Condition)
  | [] => some []
  | operand :: rest => do
    let operand ← operand.readBack names
    let others ← Predicate.readOperands names rest
    return operand :: others

/-- The statement that a clause was compiled from. -/
def Clause.readBack (names : Reading) : Clause → Option Statement
  | .create node properties => do
    let node ← names (.node node)
    let properties ← readProperties names properties
    return .create node properties
  | .matching isOptional pattern none =>
    return .matching (← pattern.readBack names) isOptional none
  | .matching isOptional pattern (some condition) => do
    let pattern ← pattern.readBack names
    let condition ← condition.readBack names
    return .matching pattern isOptional (some condition)
  | .call body => return .call (← Clause.readBody names body)
  | .withAll => some .withAll
  | .withItems items => return .withItems (← items.mapM (WithItem.readBack names))
  | .set target properties => do
    let target ← names (.ref target)
    let properties ← readProperties names properties
    return .set target properties
  | .orderBy items => return .orderBy (← items.mapM (OrderItem.readBack names))
  | .skip count => return .skip (← names (.param count))
  | .limit count => return .limit (← names (.param count))
  | .result r => return .result (← r.readBack names)

/-- The statements of a body, if each clause has one. -/
def Clause.readBody (names : Reading) : List Clause → Option (List Statement)
  | [] => some []
  | clause :: rest => do
    let clause ← clause.readBack names
    let others ← Clause.readBody names rest
    return clause :: others

end

/-- The statements of a query, in the names of a plan. -/
def Query.readBack (names : Reading) (q : Query) : Option (List Statement) :=
  Clause.readBody names q.clauses

end GraphQuery
