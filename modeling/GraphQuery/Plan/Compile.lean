import GraphQuery.Render
import GraphQuery.Plan.Fault
import GraphQuery.Plan.Weight

/-!
# Compiling a plan

Each declared name becomes one reference of a fresh arena, entities before parameters and each in
the order of their names. Then the statements become clauses, with every use of a name replaced by
its reference. The first use that fails, from left to right, stops the compilation.
-/

namespace GraphQuery.Plan

/-- What an entity's name stands for. -/
inductive Entity
  | node (node : NodeRef)
  | relationship (relationship : RelationshipRef)
  | var (target : VariableRef)

/-- The entity as something that has an alias. -/
def Entity.reference : Entity → Reference
  | node n => n.reference
  | relationship r => r.reference
  | var v => v.reference

/-- The declared names and what they stand for. -/
structure Scope where
  entities : List (String × Entity)
  params : List (String × Param)

/-- A compilation stops at its first fault. -/
abbrev Compile := Except Fault

/-! ## Declarations -/

/-- Hands out a reference for each entity in turn. -/
def declareEntities : List (String × EntityDecl) → Arena → List (String × Entity) × Arena
  | [], arena => ([], arena)
  | (name, decl) :: rest, arena =>
    let (entity, arena) := match decl with
      | .node labels => let (n, arena) := arena.addNode labels; (Entity.node n, arena)
      | .relationship type =>
        let (r, arena) := arena.addRelationship type; (Entity.relationship r, arena)
      | .var => let (v, arena) := arena.addVariable; (Entity.var v, arena)
    let (others, arena) := declareEntities rest arena
    ((name, entity) :: others, arena)

/-- Hands out a parameter for each declaration in turn. -/
def declareParams : List (String × ParamDecl) → Arena → List (String × Param) × Arena
  | [], arena => ([], arena)
  | (name, decl) :: rest, arena =>
    let (param, arena) :=
      if decl.isPoint then arena.addPointParam decl.value else arena.addParam decl.value
    let (others, arena) := declareParams rest arena
    ((name, param) :: others, arena)

/-- The scope of a plan and the arena it fills. No parameter may have the name of an entity. -/
def declare (plan : Plan) (id : ArenaId) : Compile (Scope × Arena) :=
  let (entities, arena) := declareEntities plan.entities.sorted (.empty id)
  match plan.params.sorted.find? fun entry => plan.entities.contains entry.1 with
  | some (name, _) => .error (.duplicateName name)
  | none =>
    let (params, arena) := declareParams plan.params.sorted arena
    .ok (⟨entities, params⟩, arena)

namespace Scope

/-- The entity declared under this name. -/
def entity? (s : Scope) (name : String) : Option Entity :=
  (s.entities.find? fun entry => entry.1 = name).map Prod.snd

/-- The node of this name. An entity of another kind is unknown here. -/
def node (s : Scope) (name : String) : Compile NodeRef :=
  match s.entity? name with
  | some (.node n) => .ok n
  | _ => .error (.unknownName .node name)

/-- The relationship of this name. An entity of another kind is unknown here. -/
def relationship (s : Scope) (name : String) : Compile RelationshipRef :=
  match s.entity? name with
  | some (.relationship r) => .ok r
  | _ => .error (.unknownName .relationship name)

/-- The variable of this name. An entity of another kind is unknown here. -/
def var (s : Scope) (name : String) : Compile VariableRef :=
  match s.entity? name with
  | some (.var v) => .ok v
  | _ => .error (.unknownName .var name)

/-- The entity of this name, whatever its kind. -/
def reference (s : Scope) (name : String) : Compile Reference :=
  match s.entity? name with
  | some e => .ok e.reference
  | none => .error (.unknownName .entity name)

/-- The parameter of this name. -/
def param (s : Scope) (name : String) : Compile Param :=
  match s.params.find? fun entry => entry.1 = name with
  | some (_, p) => .ok p
  | none => .error (.unknownName .param name)

end Scope

/-! ## Terms -/

/-- A value that can stand in the text. Integers outside the signed words would lose precision. -/
def literal : Json → Compile Literal
  | .null => .ok .null
  | .bool b => .ok (.bool b)
  | .int n => if Json.isWord n then .ok (.int n) else .error (.inlineValue (.int n))
  | .float x => .ok (.float x)
  | value => .error (.inlineValue value)

/-- The function of this name applied to an argument. -/
def applyNamed (function : String) (argument : Expr) : Compile Expr :=
  match UnaryFunction.ofName? function with
  | some f => .ok (.call (.apply f argument))
  | none => .error (.unknownFunction function)

/-- The distance from a call; nothing else but a property can be a source. -/
def distanceFrom (source : Expr) (point : Param) : Compile Expr :=
  match source with
  | .call f => .ok (.call (.distance (.call f) point))
  | _ => .error .distanceSource

mutual

/-- The expression of a term. Stored values are read as terms where they are met. -/
def compileTerm (s : Scope) (t : Term) : Compile Expr :=
  match t with
  | .param name => return .param (← s.param name)
  | .ref name => return .ref (← s.reference name)
  | .property target key => return .property (← s.reference target) key
  | .literal value => return .literal (← literal value)
  | .list items => return .list (← compileTerms s items)
  | .projection target fields entries => do
    -- entries first: their names may be unknown too
    let entries ← compileStored s entries
    let target ← s.reference target
    return .projection target
      (fields.map .shorthand ++ entries.map fun (key, value) => .entry key value)
  | .coalesce target key fallback => do
    let target ← s.reference target
    let fallback ← compileTerm s fallback
    return .call (.coalesce target key fallback)
  | .distance (.property target key) point => do
    -- the point is looked up before its source
    let point ← s.param point
    let target ← s.reference target
    return .call (.distance (.property target key) point)
  | .distance source point => do
    let point ← s.param point
    let source ← compileTerm s source
    distanceFrom source point
  | .call function argument => do
    let argument ← compileTerm s argument
    applyNamed function argument
termination_by 2 * t.weight
decreasing_by all_goals (simp only [Term.weight]; omega)

/-- Terms from left to right, up to the first that fails. -/
def compileTerms (s : Scope) (items : List Term) : Compile (List Expr) :=
  match items with
  | [] => .ok []
  | item :: rest => do
    let first ← compileTerm s item
    let others ← compileTerms s rest
    return first :: others
termination_by 2 * Term.weights items + 1
decreasing_by
  · simp only [Term.weights]; omega
  · have := item.weight_pos
    simp only [Term.weights]; omega

/-- Values stored as JSON, in the order of their keys. -/
def compileStored (s : Scope) (entries : List (String × Json)) : Compile (List (String × Expr)) :=
  match entries with
  | [] => .ok []
  | (key, value) :: rest =>
    match _ : Term.ofJson value with
    | .error why => .error (.storedValue key why)
    | .ok t => do
      let first ← compileTerm s t
      let others ← compileStored s rest
      return (key, first) :: others
termination_by 2 * Json.nodesOfMembers entries + 1
decreasing_by
  · have := Term.weight_ofJson ‹_›
    simp only [Json.nodesOfMembers]; omega
  · have := value.nodes_pos
    simp only [Json.nodesOfMembers]; omega

end

/-! ## Patterns and results -/

/-- A node of a pattern, with its labels unless the plan leaves them out. -/
def compileNode (s : Scope) (n : NodeUse) : Compile NodePattern := do
  let node ← s.node n.node
  return ⟨node, n.labels⟩

/-- One step of a pattern. The relationship is looked up before the node it leads to. -/
def compileHop (s : Scope) (h : HopUse) : Compile Hop := do
  let relationship ← s.relationship h.relationship
  let target ← compileNode s h.target
  return ⟨relationship, h.direction, h.named, target⟩

/-- A pattern from its start, step by step. -/
def compilePattern (s : Scope) (p : PatternUse) : Compile Pattern := do
  let start ← compileNode s p.start
  let hops ← p.hops.mapM (compileHop s)
  return ⟨start, hops⟩

/-- An expression to carry on. The variable for it is looked up last. -/
def compileWith (s : Scope) (w : WithUse) : Compile WithItem := do
  let expr ← compileTerm s w.expr
  match w.aliasName with
  | none => return ⟨expr, none⟩
  | some name =>
    let v ← s.var name
    return ⟨expr, some v⟩

/-- A sort key and the order that the plan gives it. -/
def compileOrder (s : Scope) (o : OrderUse) : Compile OrderItem := do
  let expr ← compileTerm s o.expr
  return ⟨expr, o.direction⟩

/-- What is returned: an entity, an expression without fields, or everything. -/
def compileTarget (s : Scope) (r : ReturnUse) : Compile ReturnTarget :=
  match r.entity, r.expr with
  | some _, some _ => .error (.invalidReturn .entityAndExpr)
  | some name, none => do
    let target ← s.reference name
    return .entity target r.fields
  | none, some expr =>
    if r.fields.isEmpty then return .expr (← compileTerm s expr)
    else .error (.invalidReturn .fieldsAlone)
  | none, none => if r.fields.isEmpty then .ok .all else .error (.invalidReturn .fieldsAlone)

/-- The output name of a result, which may be given in one way only. -/
def compileAlias (s : Scope) (r : ReturnUse) : Compile (Option ReturnAlias) :=
  match r.aliasName, r.aliasVariable with
  | some _, some _ => .error (.invalidReturn .twoAliases)
  | some name, none => .ok (some (.name name))
  | none, some name => do
    let v ← s.var name
    return some (.var v)
  | none, none => .ok none

/-- A result: first what it returns, then under which name. -/
def compileResult (s : Scope) (r : ReturnUse) : Compile Result := do
  let target ← compileTarget s r
  let outputName ← compileAlias s r
  return ⟨target, outputName⟩

/-! ## Conditions and statements -/

mutual

/-- A condition, its parts from left to right. A subquery counts its statements anew. -/
def compileCondition (s : Scope) : Condition → Compile Predicate
  | .compare operator lhs rhs => do
    let lhs ← compileTerm s lhs
    let rhs ← compileTerm s rhs
    return .compare operator lhs rhs
  | .isNull expr => return .isNull (← compileTerm s expr)
  | .isNotNull expr => return .isNotNull (← compileTerm s expr)
  | .group junction operands => return .group junction (← compileConditions s operands)
  | .not operand => return .not (← compileCondition s operand)
  | .existsIn statements => return .existsIn (← compileStatements s 0 statements)

/-- Operands from left to right, up to the first that fails. -/
def compileConditions (s : Scope) : List Condition → Compile (List Predicate)
  | [] => .ok []
  | operand :: rest => do
    let first ← compileCondition s operand
    let others ← compileConditions s rest
    return first :: others

/-- One statement as a clause. Names are looked up in the order in which the statement mentions
them. -/
def compileStatement (s : Scope) : Statement → Compile Clause
  | .create node properties => do
    let node ← s.node node
    let properties ← compileStored s properties
    return .create node properties
  | .matching pattern optional none => do
    let pattern ← compilePattern s pattern
    return .matching optional pattern none
  | .matching pattern optional (some condition) => do
    let pattern ← compilePattern s pattern
    let condition ← compileCondition s condition
    return .matching optional pattern (some condition)
  | .call statements => return .call (← compileStatements s 0 statements)
  | .withAll => .ok .withAll
  | .withItems items => return .withItems (← items.mapM (compileWith s))
  | .set target properties => do
    let target ← s.reference target
    let properties ← compileStored s properties
    return .set target properties
  | .orderBy items => return .orderBy (← items.mapM (compileOrder s))
  | .skip param => return .skip (← s.param param)
  | .limit param => return .limit (← s.param param)
  | .result use => return .result (← compileResult s use)

/-- The clauses of statements, of which `index` came before. A result has to be the last one. -/
def compileStatements (s : Scope) (index : Nat) : List Statement → Compile (List Clause)
  | [] => .ok []
  | statement :: rest =>
    if statement.isResult && !rest.isEmpty then .error (.afterReturn (index + 1))
    else do
      let first ← compileStatement s statement
      let others ← compileStatements s (index + 1) rest
      return first :: others

end

/-- A plan ready to be built: its query and the arena of its references. -/
structure Compiled where
  arena : Arena
  query : Query

/-- Compiles a plan over a fresh arena. -/
def compile (plan : Plan) (id : ArenaId) : Compile Compiled := do
  let (scope, arena) ← declare plan id
  let clauses ← compileStatements scope 0 plan.statements
  return ⟨arena, ⟨clauses⟩⟩

/-- Builds the query of a compiled plan. -/
def Compiled.build (c : Compiled) (settings : Settings) : Except GraphQuery.Fault Built :=
  c.query.build c.arena.id settings

/-- The line that is logged when a plan compiles. -/
def logLine (plan : Plan) : String :=
  "compiled plan: " ++ toString plan.entities.size ++ " entities, " ++ toString plan.params.size
    ++ " params, " ++ toString plan.statements.length ++ " statements"

end GraphQuery.Plan
