import GraphQuery.Clause
import GraphQuery.Json.Value
import GraphQuery.Plan.Table

/-!
# Plans

A plan is a query written down: it declares entities and parameters by name and lists statements
that use those names. Names live in the plan only; the names in the text are given by the build.
Values of properties and of projection entries stay JSON until the plan is compiled.
-/

namespace GraphQuery.Plan

/-- What is declared under the name of an entity. -/
inductive EntityDecl
  | node (labels : List String)
  | relationship (type : Option String)
  | var

/-- A parameter with the value it is bound to. A point is written as a call around the name. -/
structure ParamDecl where
  value : Json
  isPoint : Bool

/-- An expression of a plan. -/
inductive Term
  | param (name : String)
  | ref (name : String)
  | property (target key : String)
  | literal (value : Json)
  | list (items : List Term)
  | projection (target : String) (fields : List String) (entries : List (String × Json))
  | coalesce (target key : String) (fallback : Term)
  | distance (source : Term) (point : String)
  | call (function : String) (argument : Term)
deriving Inhabited

/-- A node of a pattern, and whether its labels are written. -/
structure NodeUse where
  node : String
  labels : Bool

/-- A step of a pattern, in the names of the plan. -/
structure HopUse where
  relationship : String
  direction : Direction
  named : Bool
  target : NodeUse

/-- A pattern in the names of the plan. -/
structure PatternUse where
  start : NodeUse
  hops : List HopUse

/-- An expression carried on, and the variable it is carried under, if any. -/
structure WithUse where
  expr : Term
  aliasName : Option String

/-- A sort key of the plan and its order. -/
structure OrderUse where
  expr : Term
  direction : SortDirection

/-- A result as the plan words it, before it is known whether its parts go together. -/
structure ReturnUse where
  entity : Option String
  fields : List String
  expr : Option Term
  aliasName : Option String
  aliasVariable : Option String

mutual

/-- A condition of a plan. Subqueries hold statements, so conditions and statements are defined
together. -/
inductive Condition
  | compare (operator : Comparison) (lhs rhs : Term)
  | isNull (expr : Term)
  | isNotNull (expr : Term)
  | group (junction : Junction) (operands : List Condition)
  | not (operand : Condition)
  | existsIn (statements : List Statement)

/-- A statement of a plan, with the names it uses still unresolved. -/
inductive Statement
  | create (node : String) (properties : List (String × Json))
  | matching (pattern : PatternUse) (optional : Bool) (condition : Option Condition)
  | call (statements : List Statement)
  | withAll
  | withItems (items : List WithUse)
  | set (target : String) (properties : List (String × Json))
  | orderBy (items : List OrderUse)
  | skip (param : String)
  | limit (param : String)
  | result (use : ReturnUse)

end

/-- Whether the statement is the one that must come last. -/
def Statement.isResult : Statement → Bool
  | result _ => true
  | _ => false

end GraphQuery.Plan

namespace GraphQuery

/-- Declarations and the statements that use them. -/
structure Plan where
  entities : Plan.Table Plan.EntityDecl
  params : Plan.Table Plan.ParamDecl
  statements : List Plan.Statement

end GraphQuery
