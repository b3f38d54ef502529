import GraphQuery.Content
import GraphQuery.Plan.Syntax

/-!
# Reading statements and declarations from content

Terms and conditions are alternatives, statements and entity declarations are tagged records. Every
reader works on content, whatever notation it came from. Each step into a value uses up one unit of
fuel, and a value never nests deeper than it has nodes.
-/

namespace GraphQuery.Plan

open Content

/-! ## Terms -/

/-- Which alternative of a term is meant. -/
inductive Term.Kind
  | param
  | ref
  | property
  | literal
  | list
  | projection
  | coalesce
  | distance
  | call

/-- The key that announces each alternative of a term. -/
def Term.kinds : List (String × Term.Kind) :=
  [("param", .param), ("ref", .ref), ("property", .property), ("literal", .literal),
    ("list", .list), ("projection", .projection), ("coalesce", .coalesce),
    ("distance", .distance), ("call", .call)]

/-- Reads a term. Terms that stand in a document may list the values of a record; terms in a stored
JSON value name them. -/
def Term.read (allowed : RecordForm) : Nat → Content → Read Term
  | 0, _ => Read.malformed
  | fuel + 1, c => do
    let (kind, value) ← c.readChoice Term.kinds
    match kind with
    | .param => return .param (← readOnly readText value)
    | .ref => return .ref (← readOnly readText value)
    | .property =>
      let (target, key, ()) ← readFields allowed "PlanExpr::Property"
        (.required "of" readText <| .required "key" readText <| .nil) value
      return .property target key
    | .literal => return .literal (← readOnly readJson value)
    | .list => return .list (← readOnly (readList (Term.read allowed fuel)) value)
    | .projection =>
      let (target, fields, entries, ()) ← readFields allowed "PlanExpr::Projection"
        (.required "of" readText <| .withDefault "fields" (readList readText) [] <|
          .withDefault "entries" readMembers [] <| .nil) value
      return .projection target fields entries
    | .coalesce =>
      let (target, key, fallback, ()) ← readFields allowed "PlanExpr::Coalesce"
        (.required "of" readText <| .required "key" readText <|
          .required "fallback" (Term.read allowed fuel) <| .nil) value
      return .coalesce target key fallback
    | .distance =>
      let (source, point, ()) ← readFields allowed "PlanExpr::Distance"
        (.required "source" (Term.read allowed fuel) <| .required "point" readText <| .nil) value
      return .distance source point
    | .call =>
      let (function, argument, ()) ← readFields allowed "PlanExpr::Call"
        (.required "function" readText <| .required "arg" (Term.read allowed fuel) <| .nil) value
      return .call function argument

/-- Reads a term out of a stored JSON value. -/
def Term.ofJson (value : Json) : Read Term :=
  let c := Content.ofJson value
  Term.read .named c.nodes c

/-! ## Patterns and items -/

/-- The name of each comparison in a plan. -/
def comparisons : List (String × Comparison) :=
  [("eq", .eq), ("ne", .ne), ("lt", .lt), ("lte", .lte), ("gt", .gt), ("gte", .gte),
    ("contains", .contains), ("starts_with", .startsWith), ("ends_with", .endsWith),
    ("in", .inList), ("matches", .matchesPattern)]

/-- The name of each direction in a plan. -/
def directions : List (String × Direction) :=
  [("outgoing", .outgoing), ("incoming", .incoming), ("undirected", .undirected)]

/-- The name of each sort order in a plan. -/
def sortDirections : List (String × SortDirection) :=
  [("asc", .asc), ("desc", .desc)]

/-- A node of a pattern. Its labels are written unless the plan says otherwise. -/
def NodeUse.read (c : Content) : Read NodeUse := do
  let (node, labels, ()) ← readRecord "PlanNode"
    (.required "node" readText <| .withDefault "labels" readFlag true <| .nil) c
  return ⟨node, labels⟩

/-- A step of a pattern. It goes outwards and has an alias unless the plan says otherwise. -/
def HopUse.read (c : Content) : Read HopUse := do
  let (relationship, direction, named, target, ()) ← readRecord "PlanHop"
    (.required "relationship" readText <|
      .withDefault "direction" (readBare directions) .outgoing <|
      .withDefault "named" readFlag true <| .required "to" NodeUse.read <| .nil) c
  return ⟨relationship, direction, named, target⟩

/-- A pattern, which may be a single node. -/
def PatternUse.read (c : Content) : Read PatternUse := do
  let (start, hops, ()) ← readRecord "PlanPattern"
    (.required "start" NodeUse.read <| .withDefault "hops" (readList HopUse.read) [] <| .nil) c
  return ⟨start, hops⟩

/-- An expression to carry on, under a variable or as it is. -/
def WithUse.read (fuel : Nat) (c : Content) : Read WithUse := do
  let (expr, aliasName, ()) ← readRecord "PlanWithItem"
    (.required "expr" (Term.read .namedOrListed fuel) <|
      .withDefault "alias" (readOption readText) none <| .nil) c
  return ⟨expr, aliasName⟩

/-- A sort key, ascending unless the plan says otherwise. -/
def OrderUse.read (fuel : Nat) (c : Content) : Read OrderUse := do
  let (expr, direction, ()) ← readRecord "PlanOrderItem"
    (.required "expr" (Term.read .namedOrListed fuel) <|
      .withDefault "direction" (readBare sortDirections) .asc <| .nil) c
  return ⟨expr, direction⟩

/-! ## Conditions and statements -/

/-- Which alternative of a condition is meant. -/
inductive Condition.Kind
  | compare
  | isNull
  | isNotNull
  | and
  | or
  | not
  | existsIn

/-- The key that announces each alternative of a condition. -/
def Condition.kinds : List (String × Condition.Kind) :=
  [("compare", .compare), ("is_null", .isNull), ("is_not_null", .isNotNull), ("and", .and),
    ("or", .or), ("not", .not), ("exists", .existsIn)]

/-- Which operation a statement is. -/
inductive Statement.Kind
  | create
  | matching
  | call
  | withAll
  | withItems
  | set
  | orderBy
  | skip
  | limit
  | result

/-- The tag of each operation. -/
def Statement.kinds : List (String × Statement.Kind) :=
  [("create", .create), ("match", .matching), ("call", .call), ("with_all", .withAll),
    ("with", .withItems), ("set", .set), ("order_by", .orderBy), ("skip", .skip),
    ("limit", .limit), ("return", .result)]

/-- The body of a statement that can hold no other statement. -/
def ReturnUse.readBody (fuel : Nat) (body : Content) : Read ReturnUse := do
  let (entity, fields, expr, aliasName, aliasVariable, ()) ←
    Content.readBody "PlanStatement::Return"
      (.withDefault "entity" (readOption readText) none <|
        .withDefault "fields" (readList readText) [] <|
        .withDefault "expr" (readOption (Term.read .namedOrListed fuel)) none <|
        .withDefault "alias" (readOption readText) none <|
        .withDefault "alias_variable" (readOption readText) none <| .nil) body
  return ⟨entity, fields, expr, aliasName, aliasVariable⟩

mutual

/-- A condition. Groups of either kind are lists, and a subquery is a list of statements. -/
def Condition.read : Nat → Content → Read Condition
  | 0, _ => Read.malformed
  | fuel + 1, c => do
    let (kind, value) ← c.readChoice Condition.kinds
    match kind with
    | .compare =>
      let (operator, lhs, rhs, ()) ← readFields .namedOrListed "PlanPredicate::Compare"
        (.required "op" (readBare comparisons) <|
          .required "lhs" (Term.read .namedOrListed fuel) <|
          .required "rhs" (Term.read .namedOrListed fuel) <| .nil) value
      return .compare operator lhs rhs
    | .isNull => return .isNull (← readOnly (Term.read .namedOrListed fuel) value)
    | .isNotNull => return .isNotNull (← readOnly (Term.read .namedOrListed fuel) value)
    | .and => return .group .and (← readOnly (readList (Condition.read fuel)) value)
    | .or => return .group .or (← readOnly (readList (Condition.read fuel)) value)
    | .not => return .not (← readOnly (Condition.read fuel) value)
    | .existsIn => return .existsIn (← readOnly (readList (Statement.read fuel)) value)

/-- Reads what follows the tag of a statement. -/
def Statement.readBody (kind : Statement.Kind) : Nat → Content → Read Statement
  | 0, _ => Read.malformed
  | fuel + 1, body => do
    match kind with
    | .create =>
      let (node, properties, ()) ← Content.readBody "PlanStatement::Create"
        (.required "node" readText <| .withDefault "properties" readMembers [] <| .nil) body
      return .create node properties
    | .matching =>
      let (pattern, optional, condition, ()) ← Content.readBody "PlanStatement::Match"
        (.required "pattern" PatternUse.read <| .withDefault "optional" readFlag false <|
          .withDefault "where" (readOption (Condition.read fuel)) none <| .nil) body
      return .matching pattern optional condition
    | .call =>
      let (statements, ()) ← Content.readBody "PlanStatement::Call"
        (.required "statements" (readList (Statement.read fuel)) <| .nil) body
      return .call statements
    | .withAll =>
      readEmptyBody body
      return .withAll
    | .withItems =>
      let (items, ()) ← Content.readBody "PlanStatement::With"
        (.required "items" (readList (WithUse.read fuel)) <| .nil) body
      return .withItems items
    | .set =>
      let (target, properties, ()) ← Content.readBody "PlanStatement::Set"
        (.required "target" readText <| .required "properties" readMembers <| .nil) body
      return .set target properties
    | .orderBy =>
      let (items, ()) ← Content.readBody "PlanStatement::OrderBy"
        (.required "items" (readList (OrderUse.read fuel)) <| .nil) body
      return .orderBy items
    | .skip =>
      let (param, ()) ← Content.readBody "PlanStatement::Skip"
        (.required "param" readText <| .nil) body
      return .skip param
    | .limit =>
      let (param, ()) ← Content.readBody "PlanStatement::Limit"
        (.required "param" readText <| .nil) body
      return .limit param
    | .result => return .result (← ReturnUse.readBody fuel body)

/-- A statement: its tag is read first, wherever it stands, and then its body. -/
def Statement.read : Nat → Content → Read Statement
  | 0, _ => Read.malformed
  | fuel + 1, c => do
    let tagged ← readTagged "PlanStatement" "op" (readIdentifier Statement.kinds) c
    Statement.readBody tagged.kind fuel tagged.body

end

/-! ## Declarations -/

/-- Which kind of entity is declared. -/
inductive EntityDecl.Kind
  | node
  | relationship
  | var

/-- The tag of each kind of entity. -/
def EntityDecl.kinds : List (String × EntityDecl.Kind) :=
  [("node", .node), ("relationship", .relationship), ("variable", .var)]

/-- The body of a declaration. Labels and type may be left out, and a variable has nothing to
add. -/
def EntityDecl.readBody (kind : EntityDecl.Kind) (body : Content) : Read EntityDecl := do
  match kind with
  | .node =>
    let (labels, ()) ← Content.readBody "EntityDecl::Node"
      (.withDefault "labels" (readList readText) [] <| .nil) body
    return .node labels
  | .relationship =>
    let (type, ()) ← Content.readBody "EntityDecl::Relationship"
      (.withDefault "type" (readOption readText) none <| .nil) body
    return .relationship type
  | .var =>
    readEmptyBody body
    return .var

end GraphQuery.Plan
