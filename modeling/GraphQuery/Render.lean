import GraphQuery.Clause
import GraphQuery.Name
import GraphQuery.Naming
import GraphQuery.Query

/-!
# The text of a query

Rendering visits a query depth first and from left to right, and names each reference on its first
visit. Labels, types, keys and output names are quoted as needed, values are never written, and a
part that may not be empty is refused at the place where it would have been written.
-/

namespace GraphQuery

open Render

/-! ## Names and leaves -/

/-- A property key; the empty key is refused. -/
def renderKey (key : String) : Render String :=
  if key.isEmpty then fail .emptyPropertyKey else pure (Name.written key)

/-- A parameter, wrapped where its value is a point. -/
def Param.render (p : Param) : Render String := do
  let name ← paramNameOf p
  return if p.isPoint then "point($" ++ name ++ ")" else "$" ++ name

/-- A literal. The text of a float always has a point or an exponent, so it stays a float. -/
def Literal.render : Literal → Render String
  | null => pure "NULL"
  | bool b => pure (if b then "true" else "false")
  | int n => pure (toString n)
  | float x => if x.isFinite then pure (Decimal.text .query x) else fail (.nonFiniteLiteral x)

/-- A property of a reference: the key is judged before the alias is given. -/
def renderProperty (target : Reference) (key : String) : Render String := do
  let key ← renderKey key
  let name ← aliasOf target
  return name ++ "." ++ key

/-! ## Expressions -/

mutual

/-- An expression as text, what it is made of rendered from left to right. -/
def Expr.render : Expr → Render String
  | .literal value => value.render
  | .param p => p.render
  | .ref target => aliasOf target
  | .property target key => renderProperty target key
  | .call f => f.render
  | .list items => do
    let items ← Expr.renderItems items
    return "[" ++ ", ".intercalate items ++ "]"
  | .map entries => do
    let entries ← Expr.renderEntries entries
    return "\x7b" ++ ", ".intercalate entries ++ "\x7d"
  | .projection target fields => do
    let name ← aliasOf target
    let fields ← Expr.renderFields fields
    return name ++ " \x7b" ++ ", ".intercalate fields ++ "\x7d"

/-- A call: its name and the texts of its arguments. -/
def FunctionCall.render : FunctionCall → Render String
  | .coalesce target key fallback => do
    let property ← renderProperty target key
    let fallback ← fallback.render
    return "coalesce(" ++ property ++ ", " ++ fallback ++ ")"
  | .distance source point => do
    let source ← source.render
    let point ← point.render
    return "distance(" ++ source ++ ", " ++ point ++ ")"
  | .apply f argument => do
    let argument ← argument.render
    return f.name ++ "(" ++ argument ++ ")"

/-- The text of what a distance is measured from. -/
def DistanceSource.render : DistanceSource → Render String
  | .property target key => renderProperty target key
  | .call f => f.render

/-- A field of a projection. The key is judged before the value is rendered. -/
def ProjectionField.render : ProjectionField → Render String
  | .shorthand key => do
    let key ← renderKey key
    return "." ++ key
  | .entry key value => do
    let key ← renderKey key
    let value ← value.render
    return key ++ ": " ++ value

/-- The texts of the items, up to the first that fails. -/
def Expr.renderItems : List Expr → Render (List String)
  | [] => pure []
  | item :: rest => do
    let text ← item.render
    let texts ← Expr.renderItems rest
    return text :: texts

/-- The texts of the entries, up to the first that fails. -/
def Expr.renderEntries : List (String × Expr) → Render (List String)
  | [] => pure []
  | (key, value) :: rest => do
    let key ← renderKey key
    let value ← value.render
    let texts ← Expr.renderEntries rest
    return (key ++ ": " ++ value) :: texts

/-- The texts of the fields, up to the first that fails. -/
def Expr.renderFields : List ProjectionField → Render (List String)
  | [] => pure []
  | field :: rest => do
    let text ← field.render
    let texts ← Expr.renderFields rest
    return text :: texts

end

/-! ## Patterns -/

/-- A node between parentheses. Empty labels are refused also where labels are not written. -/
def NodePattern.render (p : NodePattern) : Render String := do
  if p.node.labels.any String.isEmpty then fail .emptyLabel
  let name ← aliasOf p.node.reference
  return "(" ++ name ++ (if p.withLabels then Name.labels p.node.labels else "") ++ ")"

/-- The line of a relationship, with its arrow head if it has a direction. -/
def Direction.arrow (d : Direction) (inner : String) : String :=
  match d with
  | outgoing => "-[" ++ inner ++ "]->"
  | incoming => "<-[" ++ inner ++ "]-"
  | undirected => "-[" ++ inner ++ "]-"

/-- The type after its colon; the empty type is refused. -/
def renderType : Option String → Render String
  | none => pure ""
  | some type => if type.isEmpty then fail .emptyLabel else pure (":" ++ Name.written type)

/-- A relationship without the node it leads to. An anonymous one gets no alias. -/
def Hop.renderArrow (h : Hop) : Render String := do
  let name ← if h.named then aliasOf h.relationship.reference else pure ""
  let type ← renderType h.relationship.type
  return h.direction.arrow (name ++ type)

/-- The steps after the start of a pattern, each right behind the one before it. -/
def renderHops : List Hop → Render String
  | [] => pure ""
  | hop :: rest => do
    let arrow ← hop.renderArrow
    let target ← hop.target.render
    let others ← renderHops rest
    return arrow ++ target ++ others

/-- The text of a pattern, which has no blanks between its parts. -/
def Pattern.render (p : Pattern) : Render String := do
  let start ← p.start.render
  let hops ← renderHops p.hops
  return start ++ hops

/-! ## Clauses without subqueries -/

/-- One assignment to a property of the named reference. -/
def renderAssignments (name : String) : List (String × Expr) → Render (List String)
  | [] => pure []
  | (key, value) :: rest => do
    let key ← renderKey key
    let value ← value.render
    let texts ← renderAssignments name rest
    return (name ++ "." ++ key ++ " = " ++ value) :: texts

/-- A new node and its first properties. -/
def renderCreate (node : NodeRef) (properties : List (String × Expr)) : Render String := do
  if node.labels.isEmpty then fail .missingLabels
  let pattern ← (NodePattern.declared node).render
  let name ← aliasOf node.reference
  let assignments ← renderAssignments name properties
  return if properties.isEmpty then "CREATE " ++ pattern
    else "CREATE " ++ pattern ++ "\nSET " ++ ",\n".intercalate assignments

/-- Assignments to one reference, which is named once and before any of them. There has to be at
least one. -/
def renderSet (target : Reference) (properties : List (String × Expr)) : Render String := do
  if properties.isEmpty then fail .emptySet
  let name ← aliasOf target
  let assignments ← renderAssignments name properties
  return "SET " ++ ",\n".intercalate assignments

/-- The variable is named after its expression. -/
def WithItem.render (item : WithItem) : Render String := do
  let text ← item.expr.render
  match item.aliasVariable with
  | none => return text
  | some v =>
    let name ← aliasOf v.reference
    return text ++ " AS " ++ name

/-- The texts of the carried expressions, up to the first that fails. -/
def renderWithItems : List WithItem → Render (List String)
  | [] => pure []
  | item :: rest => do
    let text ← item.render
    let texts ← renderWithItems rest
    return text :: texts

/-- A WITH, which needs something to carry. -/
def renderWith (items : List WithItem) : Render String := do
  if items.isEmpty then fail .emptyWith
  let texts ← renderWithItems items
  return "WITH " ++ ", ".intercalate texts

/-- The word behind a sort key. -/
def SortDirection.keyword : SortDirection → String
  | asc => "ASC"
  | desc => "DESC"

/-- The sort keys with their orders, up to the first that fails. -/
def renderOrderItems : List OrderItem → Render (List String)
  | [] => pure []
  | item :: rest => do
    let text ← item.expr.render
    let texts ← renderOrderItems rest
    return (text ++ " " ++ item.direction.keyword) :: texts

/-- An ORDER BY, which needs something to sort by. -/
def renderOrderBy (items : List OrderItem) : Render String := do
  if items.isEmpty then fail .emptyOrderBy
  let texts ← renderOrderItems items
  return "ORDER BY " ++ ", ".intercalate texts

/-- The listed properties of an entity, each with a point before it. -/
def renderFields : List String → Render (List String)
  | [] => pure []
  | key :: rest => do
    let key ← renderKey key
    let texts ← renderFields rest
    return ("." ++ key) :: texts

/-- What is returned. Without fields an entity is returned as a whole. -/
def ReturnTarget.render : ReturnTarget → Render String
  | .entity target fields => do
    let name ← aliasOf target
    let texts ← renderFields fields
    return if fields.isEmpty then name else name ++ " \x7b" ++ ", ".intercalate texts ++ "\x7d"
  | .expr e => e.render
  | .all => pure "*"

/-- The output name; an empty one is left out. -/
def renderReturnAlias : Option ReturnAlias → Render String
  | none => pure ""
  | some (.name name) => pure (if name.isEmpty then "" else " AS " ++ Name.written name)
  | some (.var v) => do
    let name ← aliasOf v.reference
    return " AS " ++ name

/-- A result. What is returned is rendered before its output name. -/
def Result.render (r : Result) : Render String := do
  let target ← r.target.render
  let name ← renderReturnAlias r.outputName
  return "RETURN " ++ target ++ name

/-! ## Predicates and subqueries -/

/-- Whether a predicate is written as a group of two or more. A group of one is written as its
operand. -/
def Predicate.isJoined : Predicate → Bool
  | .group _ [operand] => operand.isJoined
  | .group _ (_ :: _ :: _) => true
  | _ => false

/-- An operand of a group: a group inside a group stands in parentheses. -/
def Predicate.asOperand (p : Predicate) (text : String) : String :=
  if p.isJoined then "(" ++ text ++ ")" else text

mutual

/-- A condition as text. Only a group asks whether it has operands. -/
def Predicate.render : Predicate → Render String
  | .compare operator lhs rhs => do
    let lhs ← lhs.render
    let rhs ← rhs.render
    return lhs ++ " " ++ operator.symbol ++ " " ++ rhs
  | .isNull e => do
    let text ← e.render
    return text ++ " IS NULL"
  | .isNotNull e => do
    let text ← e.render
    return text ++ " IS NOT NULL"
  | .group junction [] => fail (.emptyGroup junction)
  -- the junction of a group of one is never written
  | .group _ [operand] => operand.render
  | .group junction (first :: second :: rest) => do
    let text ← first.render
    let text' ← second.render
    let texts ← Predicate.renderOperands rest
    return (" " ++ junction.keyword ++ " ").intercalate
      (first.asOperand text :: second.asOperand text' :: texts)
  | .not operand => do
    let text ← operand.render
    return "NOT (" ++ text ++ ")"
  | .existsIn body => do
    let texts ← subquery (Clause.renderAll body)
    return "EXISTS \x7b\n" ++ "\n".intercalate texts ++ "\n\x7d"

/-- The texts of the operands, each in parentheses where it needs them. -/
def Predicate.renderOperands : List Predicate → Render (List String)
  | [] => pure []
  | operand :: rest => do
    let text ← operand.render
    let texts ← Predicate.renderOperands rest
    return operand.asOperand text :: texts

/-- A clause as text. The subquery of a CALL is one step deeper. -/
def Clause.render : Clause → Render String
  | .create node properties => renderCreate node properties
  | .matching optional pattern none => do
    let text ← pattern.render
    return (if optional then "OPTIONAL MATCH " else "MATCH ") ++ text
  | .matching optional pattern (some condition) => do
    let text ← pattern.render
    let condition ← condition.render
    return (if optional then "OPTIONAL MATCH " else "MATCH ") ++ text ++ "\nWHERE " ++ condition
  | .call body => do
    let texts ← subquery (Clause.renderAll body)
    return "CALL \x7b " ++ "\n".intercalate texts ++ " \x7d"
  | .withAll => pure "WITH *"
  | .withItems items => renderWith items
  | .set target properties => renderSet target properties
  | .orderBy items => renderOrderBy items
  | .skip count => do
    let text ← count.render
    return "SKIP " ++ text
  | .limit count => do
    let text ← count.render
    return "LIMIT " ++ text
  | .result r => r.render

/-- The texts of the clauses, up to the first that fails. -/
def Clause.renderAll : List Clause → Render (List String)
  | [] => pure []
  | clause :: rest => do
    let text ← clause.render
    let texts ← Clause.renderAll rest
    return text :: texts

end

/-! ## Building a query

A build renders a query with nothing named yet, and gives the text together with the values of the
parameters in it. -/

/-- The outcome of a build. -/
structure Built where
  text : String
  /-- The value of each parameter name in the text, in the order in which they were named. -/
  params : List (String × Json)

/-- The outcome as a document. -/
def Built.toJson (b : Built) : Json :=
  .obj [("cypher", .str b.text), ("params", .obj b.params)]

namespace Query

/-- The clauses on lines of their own. -/
def render (q : Query) : Render String := do
  let texts ← Clause.renderAll q.clauses
  return "\n".intercalate texts

/-- Renders a query after whatever was named before. -/
def buildIn (q : Query) (n : Naming) : Except Fault Built × Naming :=
  match q.render.run n with
  | (.ok text, n) => (.ok ⟨text, n.params⟩, n)
  | (.error fault, n) => (.error fault, n)

/-- Renders a query of an arena by itself. -/
def build (q : Query) (arena : ArenaId) (settings : Settings) : Except Fault Built :=
  (q.buildIn (.fresh arena settings)).1

end Query

/-- The line that a build logs when it succeeds. -/
def Built.logLine (b : Built) (q : Query) : String :=
  "built query: " ++ toString q.size ++ " statements, " ++ toString b.params.length ++ " params"

end GraphQuery
