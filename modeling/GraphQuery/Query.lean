import GraphQuery.Clause

/-!
# Queries

A query is a list of clauses that only grows at its end. The final projection turns it into a
finished query, to which nothing can be appended; a finished query can be used as a query again.
-/

namespace GraphQuery

/-- Clauses in the order in which they were appended. -/
structure Query where
  clauses : List Clause
deriving BEq

/-- A query that ends in its result. -/
structure FinishedQuery where
  query : Query
deriving BEq

namespace Query

/-- The query to start from. It has no clause yet. -/
def empty : Query :=
  ⟨[]⟩

/-- The number of clauses, not counting those inside subqueries. -/
def size (q : Query) : Nat :=
  q.clauses.length

/-- Whether nothing has been appended yet. -/
def isEmpty (q : Query) : Bool :=
  q.clauses.isEmpty

/-- Every operation of a query appends one clause. -/
def push (q : Query) (c : Clause) : Query :=
  ⟨q.clauses ++ [c]⟩

/-- Appends a CREATE. -/
def create (q : Query) (node : NodeRef) (properties : List (String × Expr)) : Query :=
  q.push (.create node properties)

/-- Appends a MATCH, optional or not, with a condition if there is one. -/
def matching (q : Query) (optional : Bool) (pattern : Pattern) (condition : Option Predicate) :
    Query :=
  q.push (.matching optional pattern condition)

/-- Appends a CALL. Only the clauses of the other query are taken over. -/
def call (q : Query) (subquery : Query) : Query :=
  q.push (.call subquery.clauses)

/-- Appends a WITH that carries everything. -/
def withAll (q : Query) : Query :=
  q.push .withAll

/-- Appends a WITH that carries these expressions. That there are any is not asked before the
build. -/
def withItems (q : Query) (items : List WithItem) : Query :=
  q.push (.withItems items)

/-- Appends a SET. That there is anything to set is not asked before the build. -/
def set (q : Query) (target : Reference) (properties : List (String × Expr)) : Query :=
  q.push (.set target properties)

/-- Appends an ORDER BY. That there is anything to sort by is not asked before the build. -/
def orderBy (q : Query) (items : List OrderItem) : Query :=
  q.push (.orderBy items)

/-- Appends a SKIP. The number is always a parameter. -/
def skip (q : Query) (count : Param) : Query :=
  q.push (.skip count)

/-- Appends a LIMIT. The number is always a parameter. -/
def limit (q : Query) (count : Param) : Query :=
  q.push (.limit count)

/-- Ends the query with its result. -/
def finish (q : Query) (result : Result) : FinishedQuery :=
  ⟨q.push (.result result)⟩

/-- Ends the query with some properties of a reference. -/
def finishWith (q : Query) (target : Reference) (fields : List String) (name : Option String) :
    FinishedQuery :=
  q.finish ⟨.entity target fields, name.map .name⟩

end Query

/-- Whether the subquery has an answer, for a query built step by step. -/
def Predicate.ofSubquery (subquery : Query) : Predicate :=
  .existsIn subquery.clauses

end GraphQuery
