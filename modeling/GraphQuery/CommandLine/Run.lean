import GraphQuery.CommandLine.Arguments
import GraphQuery.Plan.Source
import GraphQuery.Settings.Document
import GraphQuery.Settings.VariableFile

/-!
# A run of the program

A run loads the settings, then the plan, and prints what the plan renders to. It ends at the first
thing that is wrong. All that it sees of the machine it runs on is a host, which may be a table as
well as the machine itself.
-/

namespace GraphQuery.CommandLine

/-- What a run can ask for. -/
structure Host (m : Type → Type) where
  /-- The value of a variable, if it is set. -/
  lookup : String → m (Option String)
  /-- What a file holds, if it is there. -/
  fileBytes : String → m (Option ByteArray)
  /-- All of the input, if it is a text. -/
  inputText : m (Option String)

/-- Why a run fails. -/
inductive Failure
  | configFile (path : String)
  | environment
  | overrides (found : List Violation)
  | planFile (path : String)
  | input
  | plan (why : Plan.Failure)

/-- How a run ends. -/
inductive Ending
  | printed (text : String)
  | failed (why : Failure)
  /-- The arguments are wrong. -/
  | misused

/-- What is reported of a failure. Of plans that cannot be read only the notation is told. -/
def Failure.message : Failure → String
  | configFile path => "Failed to load config " ++ path
  | environment => "Invalid environment configuration"
  | overrides found => Violation.report found
  | planFile path => "Failed to load plan " ++ path
  | input => "Failed to read plan from stdin"
  | plan (.json _) => "JSON plan error"
  | plan .yaml => "YAML plan error"
  | plan .file => "I/O error"
  | plan (.compile why) => why.message
  | plan (.build (.defect why)) => "Build error: " ++ why.message
  | plan (.build (.foreign _)) => "a reference of another arena"

namespace Ending

/-- The exit code tells a failed run from a call that was not understood. -/
def exitCode : Ending → Nat
  | printed _ => 0
  | failed _ => 1
  | misused => 2

/-- What is written to the output. -/
def output : Ending → String
  | printed text => text
  | failed _ | misused => ""

/-- The first line of what is reported. -/
def report? : Ending → Option String
  | failed why => some (String.ofList (("Error: " ++ why.message).toList.takeWhile (· ≠ '\n')))
  | printed _ | misused => none

end Ending

/-- The name and the version, on one line. -/
def versionText : String :=
  "cypher-builder 0.3.0-dev\n"

/-- What the program says about itself: the ways to call it, its options, and what it reads from its
surroundings. -/
def helpText : String :=
  "Parameterized Cypher query construction from a tree of statements

Usage: cypher-builder [OPTIONS] [PLAN]

Arguments:
  [PLAN]  Build plan file (.json, .yaml or .yml); reads JSON from stdin when omitted

Options:
      --config <CONFIG>
          YAML configuration file (environment variables are used otherwise)
      --alias-prefix <ALIAS_PREFIX>
          Base name for node and relationship aliases
      --variable-prefix <VARIABLE_PREFIX>
          Base name for intermediate variables
      --param-prefix <PARAM_PREFIX>
          Prefix for bound parameter names
      --max-subquery-depth <MAX_SUBQUERY_DEPTH>
          Maximum nesting of CALL / EXISTS subqueries
      --pretty
          Pretty-print the JSON output
  -h, --help
          Print help
  -V, --version
          Print version
"

variable {m : Type → Type} [Monad m]

/-- The text of a file, if it is there and is a text. -/
def Host.fileText (host : Host m) (path : String) : m (Option String) := do
  return (← host.fileBytes path).bind String.fromUTF8?

/-- The variables that hold settings, as the environment and a file of variables give them. -/
def Host.settingVariables (host : Host m) : m (String → Option String) := do
  let assignments := match ← host.fileBytes ".env" with
    | some bytes => Settings.VariableFile.read bytes
    | none => []
  let names := Settings.variableNames ++ assignments.map Settings.Assignment.name
    ++ Settings.VariableFile.mentions assignments
  let found ← names.mapM fun name => do
    return (name, ← host.lookup name)
  let environment (name : String) : Option String :=
    (found.find? fun entry => entry.1 = name).bind Prod.snd
  let set := Settings.VariableFile.assign environment [] assignments
  return Settings.VariableFile.value? environment set

/-- The settings of an invocation. Those of a file leave the environment out of account, and
overrides come last. -/
def Invocation.settings (i : Invocation) (host : Host m) : ExceptT Failure m Settings := do
  let loaded ← match i.config with
    | some path =>
      let text ← host.fileText path
      ExceptT.mk (pure ((Settings.ofFile text).mapError fun _ => .configFile path))
    | none =>
      let value ← host.settingVariables
      ExceptT.mk (pure ((Settings.ofEnvironment value).mapError fun _ => .environment))
  match loaded.merge i.overrides with
  | (settings, []) => return settings
  | (_, found) => throw (.overrides found)

/-- The plan of an invocation. -/
def Invocation.readPlan (i : Invocation) (host : Host m) : ExceptT Failure m Plan := do
  match i.plan with
  | some path =>
    let text ← host.fileText path
    ExceptT.mk (pure ((Plan.ofFile path text).mapError fun _ => .planFile path))
  | none =>
    match ← host.inputText with
    | none => throw .input
    | some text => ExceptT.mk (pure ((Plan.ofText .json text).mapError .plan))

/-- What an invocation prints. -/
def Invocation.render (i : Invocation) (host : Host m) : ExceptT Failure m String := do
  let settings ← i.settings host
  let plan ← i.readPlan host
  let built ← ExceptT.mk (pure ((plan.outcome settings).mapError .plan))
  return (if i.pretty then built.toJson.pretty else built.toJson.compact) ++ "\n"

/-- Runs the program with some arguments. -/
def run (host : Host m) (arguments : List String) : m Ending := do
  match Request.ofArguments arguments with
  | none => return .misused
  | some .help => return .printed helpText
  | some .version => return .printed versionText
  | some (.render i) =>
    match ← (i.render host).run with
    | .ok text => return .printed text
    | .error why => return .failed why

end GraphQuery.CommandLine
