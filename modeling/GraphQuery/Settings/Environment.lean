import GraphQuery.Settings.Basic
import GraphQuery.Decimal.Reader

/-!
# Settings from the environment

Each setting has a variable. A variable that is not set leaves the default in place.
-/

namespace GraphQuery

/-- Why a text is not a size. -/
inductive SizeFault
  | empty
  | badDigit
  | tooLarge
deriving DecidableEq, Repr

/-- What the user is told about a size that cannot be read. -/
def SizeFault.message : SizeFault → String
  | empty => "cannot parse integer from empty string"
  | badDigit => "invalid digit found in string"
  | tooLarge => "number too large to fit in target type"

namespace Settings

/-- Adds digits to a number that has to fit 64 bits. -/
def addDigits : Nat → List Char → Except SizeFault Nat
  | n, [] => .ok n
  | n, c :: rest =>
    if !c.isDigit then .error .badDigit
    else
      let next := n * 10 + (c.toNat - '0'.toNat)
      if Word.fitsUnsigned next then addDigits next rest else .error .tooLarge

/-- Reads a size: decimal digits, perhaps after a plus. -/
def readSize (text : String) : Except SizeFault Nat :=
  match text.toList with
  | [] => .error .empty
  | ['+'] => .error .badDigit
  | '+' :: digits => addDigits 0 digits
  | digits => addDigits 0 digits

/-- The variable for the stem of node and relationship aliases. -/
def aliasVariable : String := "CYPHER_BUILDER_ALIAS_PREFIX"

/-- The variable for the stem of variable aliases. -/
def variableVariable : String := "CYPHER_BUILDER_VARIABLE_PREFIX"

/-- The variable for the stem of parameter names. -/
def paramVariable : String := "CYPHER_BUILDER_PARAM_PREFIX"

/-- The variable for the limit on open subqueries. -/
def depthVariable : String := "CYPHER_BUILDER_MAX_SUBQUERY_DEPTH"

/-- The variables that hold settings. -/
def variableNames : List String :=
  [aliasVariable, variableVariable, paramVariable, depthVariable]

/-- Why the environment gives no settings. -/
inductive EnvironmentFault
  | depth (value : String) (why : SizeFault)
  | invalid (found : List Violation)

/-- Settings from the values of the variables. A depth that is no size is reported first. -/
def ofEnvironment (value : String → Option String) : Except EnvironmentFault Settings := do
  let depth ← match value depthVariable with
    | none => pure default.maxDepth
    | some text => (readSize text).mapError (.depth text)
  let settings : Settings :=
    { aliasStem := (value aliasVariable).getD default.aliasStem
      variableStem := (value variableVariable).getD default.variableStem
      paramStem := (value paramVariable).getD default.paramStem
      maxDepth := depth }
  settings.validated.mapError .invalid

/-- What is wrong with a variable's value. -/
def parseMessage (field value problem : String) : String :=
  "Parse error for " ++ field ++ ": " ++ value ++ " - " ++ problem

end Settings

end GraphQuery
