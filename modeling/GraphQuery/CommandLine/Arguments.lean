import GraphQuery.Settings.Environment
import GraphQuery.Settings.Basic

/-!
# Arguments

Arguments are read from left to right, and the first that is wrong, or that asks for a text about
the program, decides. An option may be given once, and is written in full. A value may be part of
the option's argument, after an equals sign, or be the next argument, which then must not look like
an option. After two hyphens nothing is an option any more.
-/

namespace GraphQuery.CommandLine

/-- What a plan is to be rendered with. -/
structure Invocation where
  /-- The file of the plan; without one it is read from the input. -/
  plan : Option String
  /-- The file of the settings; without one they come from the environment. -/
  config : Option String
  overrides : Overrides
  pretty : Bool
deriving DecidableEq, Repr

/-- What the arguments ask for. -/
inductive Request
  | help
  | version
  | render (i : Invocation)
deriving DecidableEq, Repr

namespace Invocation

/-- The invocation without arguments. -/
def bare : Invocation :=
  ⟨none, none, .none, false⟩

/-- Names the plan. -/
def withPlan (i : Invocation) (path : String) : Option Invocation :=
  if i.plan.isSome || path.isEmpty then none else some { i with plan := some path }

/-- Gives a value to an option, by its name. A file has to have a name, and a depth to be a size. -/
def withValue (i : Invocation) (name value : String) : Option Invocation :=
  let o := i.overrides
  match name with
  | "config" =>
    if i.config.isSome || value.isEmpty then none else some { i with config := some value }
  | "alias-prefix" =>
    if o.aliasStem.isSome then none
    else some { i with overrides := { o with aliasStem := some value } }
  | "variable-prefix" =>
    if o.variableStem.isSome then none
    else some { i with overrides := { o with variableStem := some value } }
  | "param-prefix" =>
    if o.paramStem.isSome then none
    else some { i with overrides := { o with paramStem := some value } }
  | "max-subquery-depth" =>
    match o.maxDepth, Settings.readSize value with
    | none, .ok depth => some { i with overrides := { o with maxDepth := some depth } }
    | _, _ => none
  | _ => none

end Invocation

/-- What a single argument is. -/
inductive Argument
  /-- The mark after which nothing is an option. -/
  | endOfOptions
  /-- An option after two hyphens, with the value in the same argument. -/
  | long (name : String) (value : Option String)
  /-- Letters after one hyphen, of which the first counts. -/
  | short (letter : Char)
  | word
deriving DecidableEq, Repr

/-- A hyphen alone is a word. -/
def Argument.ofText (text : String) : Argument :=
  match text.toList with
  | ['-', '-'] => .endOfOptions
  | '-' :: '-' :: option =>
    let (name, value) := option.span (· ≠ '=')
    .long (String.ofList name) (value.tail?.map String.ofList)
  | '-' :: letter :: _ => .short letter
  | _ => .word

/-- Reads arguments that are all words. -/
def readWords (i : Invocation) : List String → Option Request
  | [] => some (.render i)
  | word :: rest => do readWords (← i.withPlan word) rest

/-- Reads arguments after those of an invocation. -/
def readArguments (i : Invocation) : List String → Option Request
  | [] => some (.render i)
  | argument :: rest =>
    match Argument.ofText argument with
    | .endOfOptions => readWords i rest
    | .word => do readArguments (← i.withPlan argument) rest
    | .short letter =>
      if letter = 'h' then some .help else if letter = 'V' then some .version else none
    | .long name (some value) => do readArguments (← i.withValue name value) rest
    | .long "help" none => some .help
    | .long "version" none => some .version
    | .long "pretty" none =>
      if i.pretty then none else readArguments { i with pretty := true } rest
    | .long name none =>
      match rest with
      | [] => none
      | value :: rest =>
        if Argument.ofText value = .word then do readArguments (← i.withValue name value) rest
        else none

/-- What arguments ask for, none if they are wrong. -/
def Request.ofArguments (arguments : List String) : Option Request :=
  readArguments .bare arguments

end GraphQuery.CommandLine
