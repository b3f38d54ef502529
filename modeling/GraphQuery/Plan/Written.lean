import GraphQuery.Plan.Syntax

/-!
# Plans as JSON

The written form of a plan names every field, also those that could be left out, and lists
declarations in the order of their names. Reading the written form gives the plan back.
-/

namespace GraphQuery.Plan

/-- An alternative and what belongs to it. -/
def choice (name : String) (value : Json) : Json :=
  .obj [(name, value)]

/-- A text that may be missing. What is missing is written as null. -/
def optional : Option String → Json
  | none => .null
  | some s => .str s

/-- Names as a list of texts. -/
def texts (names : List String) : Json :=
  .arr (names.map .str)

mutual

/-- A term under the key of its alternative. Inline values are written as they are. -/
def Term.toJson : Term → Json
  | .param name => choice "param" (.str name)
  | .ref name => choice "ref" (.str name)
  | .property target key => choice "property" (.obj [("of", .str target), ("key", .str key)])
  | .literal value => choice "literal" value
  | .list items => choice "list" (.arr (Term.toJsons items))
  | .projection target fields entries =>
    choice "projection"
      (.obj [("of", .str target), ("fields", texts fields), ("entries", .obj entries)])
  | .coalesce target key fallback =>
    choice "coalesce"
      (.obj [("of", .str target), ("key", .str key), ("fallback", fallback.toJson)])
  | .distance source point =>
    choice "distance" (.obj [("source", source.toJson), ("point", .str point)])
  | .call function argument =>
    choice "call" (.obj [("function", .str function), ("arg", argument.toJson)])

/-- The terms of a list, each in its written form. -/
def Term.toJsons : List Term → List Json
  | [] => []
  | item :: rest => item.toJson :: Term.toJsons rest

end

/-- The name of a comparison in a plan. -/
def comparisonName : Comparison → String
  | .eq => "eq"
  | .ne => "ne"
  | .lt => "lt"
  | .lte => "lte"
  | .gt => "gt"
  | .gte => "gte"
  | .contains => "contains"
  | .startsWith => "starts_with"
  | .endsWith => "ends_with"
  | .inList => "in"
  | .matchesPattern => "matches"

/-- The name of a direction in a plan. -/
def directionName : Direction → String
  | .outgoing => "outgoing"
  | .incoming => "incoming"
  | .undirected => "undirected"

/-- The name of a sort order in a plan. -/
def sortName : SortDirection → String
  | .asc => "asc"
  | .desc => "desc"

/-- The key of a group in a plan, which is also its junction. -/
def junctionName : Junction → String
  | .and => "and"
  | .or => "or"

/-- A node of a pattern, also saying that its labels are written. -/
def NodeUse.toJson (n : NodeUse) : Json :=
  .obj [("node", .str n.node), ("labels", .bool n.labels)]

/-- A step of a pattern, its direction and whether it has an alias included. -/
def HopUse.toJson (h : HopUse) : Json :=
  .obj [("relationship", .str h.relationship), ("direction", .str (directionName h.direction)),
    ("named", .bool h.named), ("to", h.target.toJson)]

/-- A pattern, with an empty list where no step follows. -/
def PatternUse.toJson (p : PatternUse) : Json :=
  .obj [("start", p.start.toJson), ("hops", .arr (p.hops.map HopUse.toJson))]

/-- An expression to carry on, with null where it has no variable. -/
def WithUse.toJson (w : WithUse) : Json :=
  .obj [("expr", w.expr.toJson), ("alias", optional w.aliasName)]

/-- A sort key, its order included. -/
def OrderUse.toJson (o : OrderUse) : Json :=
  .obj [("expr", o.expr.toJson), ("direction", .str (sortName o.direction))]

mutual

/-- A condition under the key of its alternative. -/
def Condition.toJson : Condition → Json
  | .compare operator lhs rhs =>
    choice "compare"
      (.obj [("op", .str (comparisonName operator)), ("lhs", lhs.toJson), ("rhs", rhs.toJson)])
  | .isNull expr => choice "is_null" expr.toJson
  | .isNotNull expr => choice "is_not_null" expr.toJson
  | .group junction operands => choice (junctionName junction) (.arr (Condition.toJsons operands))
  | .not operand => choice "not" operand.toJson
  | .existsIn statements => choice "exists" (.arr (Statement.toJsons statements))

/-- The operands of a group, each in its written form. -/
def Condition.toJsons : List Condition → List Json
  | [] => []
  | operand :: rest => operand.toJson :: Condition.toJsons rest

/-- A statement, its tag first and then its fields in the order of their declaration. -/
def Statement.toJson : Statement → Json
  | .create node properties =>
    .obj [("op", .str "create"), ("node", .str node), ("properties", .obj properties)]
  | .matching pattern isOptional none =>
    .obj [("op", .str "match"), ("pattern", pattern.toJson), ("optional", .bool isOptional),
      ("where", .null)]
  | .matching pattern isOptional (some condition) =>
    .obj [("op", .str "match"), ("pattern", pattern.toJson), ("optional", .bool isOptional),
      ("where", condition.toJson)]
  | .call statements =>
    .obj [("op", .str "call"), ("statements", .arr (Statement.toJsons statements))]
  | .withAll => .obj [("op", .str "with_all")]
  | .withItems items => .obj [("op", .str "with"), ("items", .arr (items.map WithUse.toJson))]
  | .set target properties =>
    .obj [("op", .str "set"), ("target", .str target), ("properties", .obj properties)]
  | .orderBy items => .obj [("op", .str "order_by"), ("items", .arr (items.map OrderUse.toJson))]
  | .skip param => .obj [("op", .str "skip"), ("param", .str param)]
  | .limit param => .obj [("op", .str "limit"), ("param", .str param)]
  | .result use =>
    .obj [("op", .str "return"), ("entity", optional use.entity), ("fields", texts use.fields),
      ("expr", match use.expr with | none => .null | some e => e.toJson),
      ("alias", optional use.aliasName), ("alias_variable", optional use.aliasVariable)]

/-- Statements in their order. -/
def Statement.toJsons : List Statement → List Json
  | [] => []
  | statement :: rest => statement.toJson :: Statement.toJsons rest

end

/-- The declaration of an entity, its tag first. -/
def EntityDecl.toJson : EntityDecl → Json
  | .node labels => .obj [("kind", .str "node"), ("labels", texts labels)]
  | .relationship type => .obj [("kind", .str "relationship"), ("type", optional type)]
  | .var => .obj [("kind", .str "variable")]

/-- The declaration of a parameter, also saying whether it is a point. -/
def ParamDecl.toJson (p : ParamDecl) : Json :=
  .obj [("value", p.value), ("point", .bool p.isPoint)]

/-- The written form of a plan. -/
def toJson (plan : Plan) : Json :=
  .obj [("entities", .obj (plan.entities.sorted.map fun (name, e) => (name, e.toJson))),
    ("params", .obj (plan.params.sorted.map fun (name, p) => (name, p.toJson))),
    ("statements", .arr (Statement.toJsons plan.statements))]

end GraphQuery.Plan
