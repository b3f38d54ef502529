import GraphQuery.Name

/-!
# Settings of a build

Three stems, from which aliases and parameter names are numbered, and a limit on nested subqueries.
Settings are valid when the stems are plain names, the limit lies between 1 and 64, and no alias
can be produced from both stems that share a counter.

Overrides replace some of the settings and leave the others. They are kept even if the result is
invalid, so a later override can repair it.
-/

namespace GraphQuery

/-- What a build is given besides the query: the stems of names, and a limit. -/
structure Settings where
  /-- Stem of node and relationship aliases. -/
  aliasStem : String
  /-- Stem of variable aliases. -/
  variableStem : String
  /-- Stem of parameter names. -/
  paramStem : String
  /-- How many subqueries may be open at a time. -/
  maxDepth : Nat
deriving DecidableEq, Repr

/-- One way for settings to be invalid. -/
inductive Violation
  | aliasStem
  | maxDepth
  | paramStem
  | variableStem
  /-- The two stems of aliases, one of which is the other followed by digits. -/
  | collision (aliasStem variableStem : String)
deriving DecidableEq, Repr

namespace Settings

/-- The settings where nothing else is said. -/
def default : Settings :=
  ⟨"this", "var", "param", 32⟩

/-- Where some settings are wanted and none are named, the defaults will do. -/
instance : Inhabited Settings := ⟨default⟩

/-- Whether a name is the stem followed by one or more digits, as later aliases are. -/
def extendsWithDigits : (name stem : List Char) → Bool
  | c :: name, s :: stem => c == s && extendsWithDigits name stem
  | [], _ => false
  | rest, [] => rest.all Char.isDigit

/-- Whether one stem can number its way to a name of the other. -/
def collide (a b : String) : Bool :=
  extendsWithDigits a.toList b.toList || extendsWithDigits b.toList a.toList

/-- What is wrong with single settings, in the order of their names. -/
def fieldViolations (s : Settings) : List Violation :=
  (if Name.isPlain s.aliasStem then [] else [.aliasStem])
    ++ (if 1 ≤ s.maxDepth ∧ s.maxDepth ≤ 64 then [] else [.maxDepth])
    ++ (if Name.isPlain s.paramStem then [] else [.paramStem])
    ++ (if Name.isPlain s.variableStem then [] else [.variableStem])

/-- What is wrong with the settings. The stems are compared only when each is valid by itself. -/
def violations (s : Settings) : List Violation :=
  match s.fieldViolations with
  | [] =>
    if collide s.aliasStem s.variableStem then [.collision s.aliasStem s.variableStem] else []
  | found => found

/-- Whether nothing is wrong with the settings. -/
def isValid (s : Settings) : Bool :=
  s.violations.isEmpty

/-- The settings, if nothing is wrong with them. -/
def validated (s : Settings) : Except (List Violation) Settings :=
  match s.violations with
  | [] => .ok s
  | found => .error found

end Settings

namespace Violation

/-- The setting that is at fault, or the settings as a whole. -/
def field : Violation → String
  | aliasStem => "alias_prefix"
  | maxDepth => "max_subquery_depth"
  | paramStem => "param_prefix"
  | variableStem => "variable_prefix"
  | collision _ _ => "__all__"

/-- The kind of rule that is broken. -/
def code : Violation → String
  | aliasStem | paramStem | variableStem => "prefix"
  | maxDepth => "range"
  | collision _ _ => "prefix_collision"

/-- What the user is told about one violation. -/
def message : Violation → String
  | aliasStem | paramStem | variableStem => "prefix must be a non-empty plain identifier"
  | maxDepth => "Max subquery depth must be between 1 and 64"
  | collision a v =>
    "alias prefix '" ++ a ++ "' and variable prefix '" ++ v ++ "' can produce the same alias"

/-- All violations as one text, a line for each. -/
def report (found : List Violation) : String :=
  "Validation error: " ++ "\n".intercalate (found.map fun v => v.field ++ ": " ++ v.message)

end Violation

/-! ## Overriding settings -/

/-- The settings that are to be replaced. -/
structure Overrides where
  aliasStem : Option String
  variableStem : Option String
  paramStem : Option String
  maxDepth : Option Nat
deriving DecidableEq, Repr

/-- Overrides that leave everything as it is. -/
def Overrides.none : Overrides :=
  ⟨.none, .none, .none, .none⟩

namespace Settings

/-- The settings with the overrides in place. -/
def override (s : Settings) (o : Overrides) : Settings :=
  { aliasStem := o.aliasStem.getD s.aliasStem
    variableStem := o.variableStem.getD s.variableStem
    paramStem := o.paramStem.getD s.paramStem
    maxDepth := o.maxDepth.getD s.maxDepth }

/-- Settings made from the defaults and some overrides. -/
def ofOverrides (o : Overrides) : Except (List Violation) Settings :=
  (default.override o).validated

/-- Puts overrides in place and reports what is wrong with the outcome. -/
def merge (s : Settings) (o : Overrides) : Settings × List Violation :=
  let merged := s.override o
  (merged, merged.violations)

end Settings

end GraphQuery
