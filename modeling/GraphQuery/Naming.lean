import GraphQuery.Defect
import GraphQuery.Settings.Basic

/-!
# Naming references during a build

A reference gets its name the first time the build visits it and keeps it from then on. The first
alias of a build is the bare stem of its kind; every later one is its stem and a number, counted
over all kinds together. Parameters have a stem and a count of their own, and the table of values
records each of them at the moment it is named.
-/

namespace GraphQuery

/-- What a name was given to. -/
inductive Role
  | ref (kind : RefKind)
  | param
deriving DecidableEq, Repr

/-- One name given away: to whom, and by which number of the arena it is known. -/
structure Allocation where
  role : Role
  index : Nat
  name : String
deriving DecidableEq, Repr

/-- The names given so far, and what else a build has to remember. -/
structure Naming where
  arena : ArenaId
  settings : Settings
  /-- In the order in which the names were given. -/
  allocated : List Allocation
  aliasCount : Nat
  paramCount : Nat
  /-- The value of each parameter name, in the order of the first record. -/
  params : List (String × Json)
  /-- How many subqueries are open. -/
  depth : Nat

/-- A step of a build. What it has named stays named when it fails. -/
abbrev Render := ExceptT Fault (StateM Naming)

namespace Naming

/-- Nothing is named yet. -/
def fresh (arena : ArenaId) (settings : Settings) : Naming :=
  ⟨arena, settings, [], 0, 0, [], 0⟩

/-- The name that the reference with this number has, if it has one. -/
def nameAt (n : Naming) (index : Nat) : Option String :=
  (n.allocated.find? fun a => a.index == index).map Allocation.name

/-- The stem that aliases of a kind are numbered from. -/
def stem (s : Settings) : RefKind → String
  | .node | .relationship => s.aliasStem
  | .var => s.variableStem

/-- The alias that comes after `count` others. -/
def aliasText (s : Settings) (kind : RefKind) (count : Nat) : String :=
  if count = 0 then stem s kind else stem s kind ++ toString (count - 1)

/-- The parameter name that comes after `count` others. -/
def paramText (s : Settings) (count : Nat) : String :=
  s.paramStem ++ toString count

/-- Stores a value under a name; only the first value of a name counts. -/
def record (n : Naming) (name : String) (value : Json) : Naming :=
  if n.params.any fun entry => entry.1 == name then n
  else { n with params := n.params ++ [(name, value)] }

/-- Gives the next alias to a reference. -/
def giveAlias (n : Naming) (r : Reference) : String × Naming :=
  let name := aliasText n.settings r.kind n.aliasCount
  (name, { n with
    allocated := n.allocated ++ [⟨.ref r.kind, r.id.index, name⟩]
    aliasCount := n.aliasCount + 1 })

/-- Gives the next parameter name to a parameter and records its value. -/
def giveParam (n : Naming) (p : Param) : String × Naming :=
  let name := paramText n.settings n.paramCount
  let named : Naming := { n with
    allocated := n.allocated ++ [⟨.param, p.id.index, name⟩]
    paramCount := n.paramCount + 1 }
  (name, named.record name p.value)

/-- The alias of a reference, given on the first visit. -/
def aliasOf (n : Naming) (r : Reference) : Except Fault String × Naming :=
  if r.id.arena ≠ n.arena then (.error (.foreign r.id), n)
  else match n.nameAt r.id.index with
    | some name => (.ok name, n)
    | none =>
      let (name, n) := n.giveAlias r
      (.ok name, n)

/-- The name of a parameter, given on the first visit. -/
def paramName (n : Naming) (p : Param) : Except Fault String × Naming :=
  if p.id.arena ≠ n.arena then (.error (.foreign p.id), n)
  else match n.nameAt p.id.index with
    | some name => (.ok name, n)
    | none =>
      let (name, n) := n.giveParam p
      (.ok name, n)

/-- Opens a subquery, unless that would make too many. Names and numbers carry straight on. -/
def enter (n : Naming) : Except Fault Unit × Naming :=
  if n.depth + 1 > n.settings.maxDepth then
    (.error (.defect (.subqueryTooDeep (n.depth + 1) n.settings.maxDepth)), n)
  else (.ok (), { n with depth := n.depth + 1 })

/-- Closes the innermost open subquery. -/
def leave (n : Naming) : Naming :=
  { n with depth := n.depth - 1 }

end Naming

namespace Render

/-- Stops the render because of a defect. The naming stays as it is. -/
def fail {α : Type} (why : Defect) : Render α :=
  throw (.defect why)

/-- The alias of a reference. The first time it is asked for, one is given. -/
def aliasOf (r : Reference) : Render String :=
  ExceptT.mk fun n => n.aliasOf r

/-- The name of a parameter. The first time it is asked for, one is given and the value recorded. -/
def paramNameOf (p : Param) : Render String :=
  ExceptT.mk fun n => n.paramName p

/-- Runs a step inside a subquery, which is closed again also when the step fails. -/
def subquery {α : Type} (body : Render α) : Render α :=
  ExceptT.mk fun n =>
    match n.enter with
    | (.error fault, n) => (.error fault, n)
    | (.ok (), n) =>
      let (outcome, n) := body.run n
      (outcome, n.leave)

end Render

/-! ## The log of a build -/

/-- The word for the kind of a reference in a log line. -/
def RefKind.label : RefKind → String
  | node => "Node"
  | relationship => "Relationship"
  | var => "Variable"

/-- The line that a build logs when it gives a name. -/
def Allocation.logLine (a : Allocation) : String :=
  match a.role with
  | .ref kind => "alias " ++ a.name ++ " -> " ++ kind.label ++ " #" ++ toString a.index
  | .param => "param " ++ a.name ++ " -> #" ++ toString a.index

end GraphQuery
