import GraphQuery.Decimal.Reader

/-!
# JSON values

A value keeps the order of its members. A document that repeats a key keeps the place of the first
and the value of the last, which is what `insert` does.
-/

namespace GraphQuery

/-- A JSON value. Integers are exact; the reader makes one only within the signed and unsigned
64-bit ranges. -/
inductive Json
  | null
  | bool (value : Bool)
  | int (value : Int)
  | float (value : Float)
  | str (value : String)
  | arr (items : List Json)
  | obj (members : List (String × Json))
deriving Inhabited

namespace Json

/-- Adds a member, or replaces the value of the member with that key in its place. -/
def insert (members : List (String × Json)) (key : String) (value : Json) : List (String × Json) :=
  match members with
  | [] => [(key, value)]
  | (k, v) :: rest => if k = key then (k, value) :: rest else (k, v) :: insert rest key value

/-- The value of the first member with this key. -/
def get? (members : List (String × Json)) (key : String) : Option Json :=
  (members.find? fun member => member.1 = key).map Prod.snd

mutual

/-- The number of values in a value, itself included. -/
def nodes : Json → Nat
  | null | bool _ | int _ | float _ | str _ => 1
  | arr items => 1 + nodesOfItems items
  | obj members => 1 + nodesOfMembers members

/-- The values of an array, with all that is inside of them. -/
def nodesOfItems : List Json → Nat
  | [] => 0
  | item :: rest => item.nodes + nodesOfItems rest

/-- The values of an object, with all that is inside of them. -/
def nodesOfMembers : List (String × Json) → Nat
  | [] => 0
  | (_, value) :: rest => value.nodes + nodesOfMembers rest

end

/-- Whether an integer fits a signed 64-bit word. -/
def isWord (n : Int) : Bool :=
  Word.fitsSigned n

end Json

end GraphQuery
