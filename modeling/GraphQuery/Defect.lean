import GraphQuery.Decimal.Layout
import GraphQuery.Reference

/-!
# Why a query has no text

A query whose parts are not all there, or that nests too deeply, has a defect. A reference that
another arena handed out is not a defect of the query but a misuse of the build.
-/

namespace GraphQuery

/-- The two ways to join predicates. -/
inductive Junction
  | and
  | or
deriving DecidableEq, Repr

/-- The word between two operands. -/
def Junction.keyword : Junction → String
  | and => "AND"
  | or => "OR"

/-- Why a query cannot be written. Each defect carries what its message has to name. -/
inductive Defect
  | missingLabels
  | emptyLabel
  | emptySet
  | emptyWith
  | emptyOrderBy
  | emptyGroup (junction : Junction)
  | emptyPropertyKey
  | nonFiniteLiteral (value : Float)
  /-- Opening one more subquery would make `depth` of them. -/
  | subqueryTooDeep (depth max : Nat)

/-- Why rendering stopped. -/
inductive Fault
  | defect (why : Defect)
  /-- The reference belongs to another arena than the one whose build this is. -/
  | foreign (id : RefId)

/-- A number that no literal can hold. -/
def nonFiniteText (x : Float) : String :=
  if x.isNaN then "NaN" else if x < 0 then "-inf" else "inf"

/-- What the user is told. The messages name the clause at fault and, where there is one, the way
out. -/
def Defect.message : Defect → String
  | missingLabels => "CREATE requires at least one label on the created node"
  | emptyLabel => "Labels and relationship types cannot be empty strings"
  | emptySet => "SET clause is empty (must assign at least one property)"
  | emptyWith => "WITH clause is empty (use WITH * to carry every variable)"
  | emptyOrderBy => "ORDER BY clause is empty (must contain at least one sort item)"
  | emptyGroup junction => junction.keyword ++ " predicate group has no operands"
  | emptyPropertyKey => "Property key cannot be empty"
  | nonFiniteLiteral x =>
    "Literal " ++ nonFiniteText x ++ " cannot be inlined; bind it as a parameter"
  | subqueryTooDeep depth max =>
    "Subquery nesting depth " ++ toString depth ++ " exceeds the configured maximum of "
      ++ toString max

end GraphQuery
