import GraphQuery.Json.Printer
import GraphQuery.Unread

/-!
# Why a plan does not compile
-/

namespace GraphQuery.Plan

/-- What a name has to stand for where it is used. -/
inductive Use
  | node
  | relationship
  | var
  | param
  /-- Anything that has an alias. -/
  | entity
deriving DecidableEq, Repr

/-- How the parts of a result contradict each other. -/
inductive ReturnFault
  | entityAndExpr
  | fieldsAlone
  | twoAliases
deriving DecidableEq, Repr

/-- Why a plan cannot be compiled. -/
inductive Fault
  | unknownName (use : Use) (name : String)
  | duplicateName (name : String)
  /-- The statement with this number follows the result. -/
  | afterReturn (index : Nat)
  | invalidReturn (why : ReturnFault)
  | unknownFunction (name : String)
  /-- The value can only be bound as a parameter. -/
  | inlineValue (value : Json)
  /-- The value stored under the key is no term. -/
  | storedValue (key : String) (why : Unread)
  /-- A distance is measured from a property or a function call. -/
  | distanceSource

/-- The use in the words of a message. -/
def Use.word : Use → String
  | node => "node"
  | relationship => "relationship"
  | var => "variable"
  | param => "param"
  | entity => "entity"

/-- The part of a plan that declares such names. -/
def Use.declaredUnder : Use → String
  | param => "params"
  | node | relationship | var | entity => "entities"

/-- What is wrong with the shape of a result, in the field names of a plan. -/
def ReturnFault.message : ReturnFault → String
  | entityAndExpr => "'entity' and 'expr' are mutually exclusive"
  | fieldsAlone => "'fields' needs an 'entity'"
  | twoAliases => "'alias' and 'alias_variable' are mutually exclusive"

/-- What the user is told. A name that is missing is told with the table it belongs in. -/
def Fault.message : Fault → String
  | unknownName use name =>
    "Unknown " ++ use.word ++ " '" ++ name ++ "' (declare it under '" ++ use.declaredUnder ++ "')"
  | duplicateName name => "Name '" ++ name ++ "' is declared more than once"
  | afterReturn index =>
    "Statement #" ++ toString index ++ " follows RETURN (RETURN must be the last statement)"
  | invalidReturn why => "Invalid RETURN: " ++ why.message
  | unknownFunction name => "Unknown function '" ++ name ++ "'"
  | inlineValue value =>
    "Value " ++ value.compact ++ " cannot be inlined; declare it under 'params'"
  | storedValue key why => "Invalid expression: '" ++ key ++ "': " ++ why.message
  | distanceSource => "Invalid expression: distance source must be a property or a function"

end GraphQuery.Plan
