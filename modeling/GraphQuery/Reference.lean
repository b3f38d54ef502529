import GraphQuery.Json.Value

/-!
# References and parameters

A reference knows only who it is: the arena that handed it out and its number there. The name it is
written under is decided later, when a build visits it. Two references are the same exactly when
their identities are, whatever labels, types or values they bear.
-/

namespace GraphQuery

/-- Identifies one arena. -/
structure ArenaId where
  number : Nat
deriving DecidableEq, Repr, Inhabited

/-- The identity of a reference: its arena and its number there. -/
structure RefId where
  arena : ArenaId
  index : Nat
deriving DecidableEq, Repr, Inhabited

/-- What a name-bearing reference stands for; this decides the stem of its alias. -/
inductive RefKind
  | node
  | relationship
  | var
deriving DecidableEq, Repr

/-- A node, relationship or variable, seen only as something that has an alias. -/
structure Reference where
  id : RefId
  kind : RefKind
deriving Repr

/-- References are equal when their identities are. The kind has no part in it. -/
instance : BEq Reference where
  beq a b := a.id == b.id

/-- A node and the labels written where it is declared. -/
structure NodeRef where
  id : RefId
  labels : List String
deriving Repr

namespace NodeRef

/-- The node as something that has an alias. -/
def reference (n : NodeRef) : Reference :=
  ⟨n.id, .node⟩

/-- Nodes are equal when their identities and labels are. -/
instance : BEq NodeRef where
  beq a b := a.id == b.id && a.labels == b.labels

end NodeRef

/-- A relationship and its type, if it has one. -/
structure RelationshipRef where
  id : RefId
  type : Option String
deriving Repr

namespace RelationshipRef

/-- The relationship as something that has an alias. -/
def reference (r : RelationshipRef) : Reference :=
  ⟨r.id, .relationship⟩

/-- Relationships are equal when their identities and types are. -/
instance : BEq RelationshipRef where
  beq a b := a.id == b.id && a.type == b.type

end RelationshipRef

/-- The output name of an intermediate projection. -/
structure VariableRef where
  id : RefId
deriving Repr

namespace VariableRef

/-- The variable as something that has an alias. -/
def reference (v : VariableRef) : Reference :=
  ⟨v.id, .var⟩

/-- Variables are equal when their identities are. -/
instance : BEq VariableRef where
  beq a b := a.id == b.id

end VariableRef

/-- A value that the text mentions by name only. -/
structure Param where
  id : RefId
  value : Json
  /-- Whether the value holds the coordinates of a point. -/
  isPoint : Bool

/-- Parameters are equal when their identities are. Their values are not compared. -/
instance : BEq Param where
  beq a b := a.id == b.id

/-- Hands out the references of one build, numbered from zero. -/
structure Arena where
  id : ArenaId
  size : Nat
deriving DecidableEq, Repr

namespace Arena

/-- An arena that has handed out nothing. -/
def empty (id : ArenaId) : Arena :=
  ⟨id, 0⟩

/-- The identity of the next reference. -/
def next (a : Arena) : RefId :=
  ⟨a.id, a.size⟩

/-- The arena after one more reference. -/
def grow (a : Arena) : Arena :=
  { a with size := a.size + 1 }

/-- Hands out a node. Its labels are not judged before they are written. -/
def addNode (a : Arena) (labels : List String) : NodeRef × Arena :=
  (⟨a.next, labels⟩, a.grow)

/-- Hands out a relationship. Its type is not judged before it is written. -/
def addRelationship (a : Arena) (type : Option String) : RelationshipRef × Arena :=
  (⟨a.next, type⟩, a.grow)

/-- Hands out a variable. -/
def addVariable (a : Arena) : VariableRef × Arena :=
  (⟨a.next⟩, a.grow)

/-- Each call gives a parameter of its own, also for equal values. -/
def addParam (a : Arena) (value : Json) : Param × Arena :=
  (⟨a.next, value, false⟩, a.grow)

/-- A parameter whose value is written as a point. The value is not looked at. -/
def addPointParam (a : Arena) (value : Json) : Param × Arena :=
  (⟨a.next, value, true⟩, a.grow)

end Arena

end GraphQuery
