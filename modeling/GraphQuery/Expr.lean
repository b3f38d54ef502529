import GraphQuery.Reference

/-!
# Expressions

Values, property access, function calls, lists, maps and projections. Text values are never part of
an expression: they are bound as parameters.
-/

namespace GraphQuery

/-- A value that is written into the text itself. -/
inductive Literal
  | null
  | bool (value : Bool)
  | int (value : Int)
  | float (value : Float)

/-- The functions of one argument. -/
inductive UnaryFunction
  | collect
  | count
  | min
  | max
  | avg
  | sum
  | size
  | toLower
  | toUpper
deriving DecidableEq, Repr

mutual

/-- A value as it stands in a query. An expression refers to entities and parameters by identity and
never by name. -/
inductive Expr
  | literal (value : Literal)
  | param (param : Param)
  /-- The bare alias of a reference. -/
  | ref (target : Reference)
  | property (target : Reference) (key : String)
  | call (function : FunctionCall)
  | list (items : List Expr)
  | map (entries : List (String × Expr))
  /-- Some properties of a reference, and values beside them. -/
  | projection (target : Reference) (fields : List ProjectionField)

/-- A call with its arguments. Two functions have shapes of their own, and the others take one
argument. -/
inductive FunctionCall
  /-- A property, or the fallback where there is none. -/
  | coalesce (target : Reference) (key : String) (fallback : Expr)
  | distance (source : DistanceSource) (point : Param)
  | apply (function : UnaryFunction) (argument : Expr)

/-- What a distance is measured from. -/
inductive DistanceSource
  | property (target : Reference) (key : String)
  | call (function : FunctionCall)

/-- One part of a projection: a property under its own name, or a value under a key. -/
inductive ProjectionField
  | shorthand (key : String)
  | entry (key : String) (value : Expr)

end

namespace UnaryFunction

/-- The function as it is written, in the capitals that Cypher gives it. -/
def name : UnaryFunction → String
  | collect => "collect"
  | count => "count"
  | min => "min"
  | max => "max"
  | avg => "avg"
  | sum => "sum"
  | size => "size"
  | toLower => "toLower"
  | toUpper => "toUpper"

/-- Every function of one argument, in the order of their declaration. -/
def all : List UnaryFunction :=
  [collect, count, min, max, avg, sum, size, toLower, toUpper]

/-- The function of this name. -/
def ofName? (name : String) : Option UnaryFunction :=
  all.find? fun f => f.name == name

/-- Whether the function makes one row of many. -/
def isAggregate : UnaryFunction → Bool
  | collect | count | min | max | avg | sum => true
  | size | toLower | toUpper => false

end UnaryFunction

namespace FunctionCall

/-- The word before the parenthesis. -/
def operation : FunctionCall → String
  | coalesce _ _ _ => "coalesce"
  | distance _ _ => "distance"
  | apply function _ => function.name

/-- Only a function of one argument can be an aggregate. -/
def isAggregate : FunctionCall → Bool
  | apply function _ => function.isAggregate
  | coalesce _ _ _ | distance _ _ => false

end FunctionCall

/-! ## Equality

Expressions are equal when they have the same shape, the same keys and the same identities.
Floats are compared as numbers, so the two zeros are equal and no NaN equals itself.
-/

namespace Literal

/-- Literals of different kinds are never equal, not even an integer and a float. -/
def beq : Literal → Literal → Bool
  | null, null => true
  | bool a, bool b => a == b
  | int a, int b => a == b
  | float a, float b => a == b
  | _, _ => false

/-- Equality of literals, which is not reflexive because of NaN. -/
instance : BEq Literal := ⟨beq⟩

end Literal

mutual

/-- Whether two expressions have the same shape and equal parts. -/
def Expr.beq : Expr → Expr → Bool
  | .literal a, .literal b => a == b
  | .param a, .param b => a == b
  | .ref a, .ref b => a == b
  | .property a k, .property b l => a == b && k == l
  | .call f, .call g => f.beq g
  | .list as, .list bs => Expr.beqItems as bs
  | .map as, .map bs => Expr.beqEntries as bs
  | .projection a fs, .projection b gs => a == b && Expr.beqFields fs gs
  | _, _ => false

/-- Calls of the same function with equal arguments. -/
def FunctionCall.beq : FunctionCall → FunctionCall → Bool
  | .coalesce a k e, .coalesce b l f => a == b && k == l && e.beq f
  | .distance s p, .distance t q => s.beq t && p == q
  | .apply f a, .apply g b => f == g && a.beq b
  | _, _ => false

/-- Properties of the same reference under one key, or equal calls. -/
def DistanceSource.beq : DistanceSource → DistanceSource → Bool
  | .property a k, .property b l => a == b && k == l
  | .call f, .call g => f.beq g
  | _, _ => false

/-- A property alone is never equal to an entry, even under the same key. -/
def ProjectionField.beq : ProjectionField → ProjectionField → Bool
  | .shorthand k, .shorthand l => k == l
  | .entry k a, .entry l b => k == l && a.beq b
  | _, _ => false

/-- Items are compared in their order, and neither list may have more of them. -/
def Expr.beqItems : List Expr → List Expr → Bool
  | [], [] => true
  | a :: as, b :: bs => a.beq b && Expr.beqItems as bs
  | _, _ => false

/-- Entries are compared in their order, key and value. -/
def Expr.beqEntries : List (String × Expr) → List (String × Expr) → Bool
  | [], [] => true
  | (k, a) :: as, (l, b) :: bs => k == l && a.beq b && Expr.beqEntries as bs
  | _, _ => false

/-- Fields are compared in their order. -/
def Expr.beqFields : List ProjectionField → List ProjectionField → Bool
  | [], [] => true
  | a :: as, b :: bs => a.beq b && Expr.beqFields as bs
  | _, _ => false

end

/-- Equality of expressions is that of their trees. -/
instance : BEq Expr := ⟨Expr.beq⟩

end GraphQuery
