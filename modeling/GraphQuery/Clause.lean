import GraphQuery.Defect
import GraphQuery.Expr

/-!
# Predicates and clauses

A clause is one line of a query. A predicate may ask whether a subquery has an answer, and a clause
may call one, so both are defined together. The body of a subquery is a list of clauses.
-/

namespace GraphQuery

/-- How two expressions are compared. -/
inductive Comparison
  | eq
  | ne
  | lt
  | lte
  | gt
  | gte
  | contains
  | startsWith
  | endsWith
  | inList
  | matchesPattern
deriving DecidableEq, Repr

/-- The symbol between the two sides. Three comparisons are words, and one of them is two. -/
def Comparison.symbol : Comparison → String
  | eq => "="
  | ne => "<>"
  | lt => "<"
  | lte => "<="
  | gt => ">"
  | gte => ">="
  | contains => "CONTAINS"
  | startsWith => "STARTS WITH"
  | endsWith => "ENDS WITH"
  | inList => "IN"
  | matchesPattern => "=~"

/-- Which way the arrow of a relationship points, if it points at all. -/
inductive Direction
  | outgoing
  | incoming
  | undirected
deriving DecidableEq, Repr

/-- A node of a pattern. A bound node was declared before and is written without its labels. -/
structure NodePattern where
  node : NodeRef
  withLabels : Bool
deriving BEq, Repr

/-- A node met for the first time, written with its labels. -/
def NodePattern.declared (node : NodeRef) : NodePattern :=
  ⟨node, true⟩

/-- A node that an earlier clause has declared, written by its alias alone. -/
def NodePattern.bound (node : NodeRef) : NodePattern :=
  ⟨node, false⟩

/-- One step of a pattern: a relationship, with an alias or without, and the node it leads to. -/
structure Hop where
  relationship : RelationshipRef
  direction : Direction
  named : Bool
  target : NodePattern
deriving BEq, Repr

/-- A node and the steps that lead on from it. -/
structure Pattern where
  start : NodePattern
  hops : List Hop
deriving BEq, Repr

/-- An expression carried on, under a variable or as it is. -/
structure WithItem where
  expr : Expr
  aliasVariable : Option VariableRef
deriving BEq

/-- The order of one sort key. It is always written out, also where it is the default. -/
inductive SortDirection
  | asc
  | desc
deriving DecidableEq, Repr

/-- A sort key and its order. -/
structure OrderItem where
  expr : Expr
  direction : SortDirection
deriving BEq

/-- The output name of a result: given as text, or the alias of a variable. -/
inductive ReturnAlias
  | name (name : String)
  | var (target : VariableRef)
deriving BEq

/-- What a query returns: an entity, the value of an expression, or everything in scope. -/
inductive ReturnTarget
  /-- A reference, or the listed properties of it. -/
  | entity (target : Reference) (fields : List String)
  | expr (expr : Expr)
  | all
deriving BEq

/-- The result of a query. -/
structure Result where
  target : ReturnTarget
  outputName : Option ReturnAlias
deriving BEq

mutual

/-- A condition on the rows of a query. -/
inductive Predicate
  | compare (operator : Comparison) (lhs rhs : Expr)
  | isNull (expr : Expr)
  | isNotNull (expr : Expr)
  | group (junction : Junction) (operands : List Predicate)
  | not (operand : Predicate)
  /-- Whether the subquery has an answer. -/
  | existsIn (body : List Clause)

/-- One clause of a query, with all that it is written from. -/
inductive Clause
  | create (node : NodeRef) (properties : List (String × Expr))
  | matching (optional : Bool) (pattern : Pattern) (condition : Option Predicate)
  | call (body : List Clause)
  | withAll
  | withItems (items : List WithItem)
  | set (target : Reference) (properties : List (String × Expr))
  | orderBy (items : List OrderItem)
  | skip (count : Param)
  | limit (count : Param)
  | result (result : Result)

end

mutual

/-- Whether two conditions have the same shape and equal parts. -/
def Predicate.beq : Predicate → Predicate → Bool
  | .compare o a b, .compare p c d => o == p && a == c && b == d
  | .isNull a, .isNull b => a == b
  | .isNotNull a, .isNotNull b => a == b
  | .group j ps, .group k qs => j == k && Predicate.beqOperands ps qs
  | .not p, .not q => p.beq q
  | .existsIn as, .existsIn bs => Clause.beqBody as bs
  | _, _ => false

/-- Operands are compared in their order, and neither list may have more of them. -/
def Predicate.beqOperands : List Predicate → List Predicate → Bool
  | [], [] => true
  | p :: ps, q :: qs => p.beq q && Predicate.beqOperands ps qs
  | _, _ => false

/-- Whether two clauses are of one kind and have equal parts. -/
def Clause.beq : Clause → Clause → Bool
  | .create n as, .create m bs => n == m && as == bs
  | .matching o p none, .matching o' q none => o == o' && p == q
  | .matching o p (some c), .matching o' q (some d) => o == o' && p == q && c.beq d
  | .call as, .call bs => Clause.beqBody as bs
  | .withAll, .withAll => true
  | .withItems as, .withItems bs => as == bs
  | .set a as, .set b bs => a == b && as == bs
  | .orderBy as, .orderBy bs => as == bs
  | .skip p, .skip q => p == q
  | .limit p, .limit q => p == q
  | .result a, .result b => a == b
  | _, _ => false

/-- The clauses of two bodies, compared line by line. -/
def Clause.beqBody : List Clause → List Clause → Bool
  | [], [] => true
  | a :: as, b :: bs => a.beq b && Clause.beqBody as bs
  | _, _ => false

end

/-- Equality of conditions is that of their trees. -/
instance : BEq Predicate := ⟨Predicate.beq⟩

/-- Equality of clauses is that of their trees. -/
instance : BEq Clause := ⟨Clause.beq⟩

end GraphQuery
