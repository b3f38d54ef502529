import GraphQuery.Content
import GraphQuery.Settings.Basic
import GraphQuery.Yaml.Plain

/-!
# Settings from a document

A document names the settings it replaces, or lists their values in order. Settings it leaves out
keep their defaults, and keys that name no setting are left alone. The values are not validated.
-/

namespace GraphQuery.Settings

/-- A size from a document. -/
def readSizeContent : Content → Read Nat
  | .int n => if 0 ≤ n then .ok n.toNat else .error (.mismatch (.value (.int n) "usize"))
  | c => Read.wrongType c.found "usize"

/-- The settings of a document, from values of some notation. -/
def form {V : Type} (text : V → Read String) (size : V → Read Nat) :
    Form V (String × String × String × Nat × Unit) :=
  .withDefault "alias_prefix" text default.aliasStem <|
    .withDefault "variable_prefix" text default.variableStem <|
    .withDefault "param_prefix" text default.paramStem <|
    .withDefault "max_subquery_depth" size default.maxDepth <| .nil

/-- The settings made of the values of a document, in the order of its fields. -/
def ofValues : String × String × String × Nat × Unit → Settings
  | (aliasStem, variableStem, paramStem, maxDepth, ()) =>
    ⟨aliasStem, variableStem, paramStem, maxDepth⟩

/-- Reads settings from a JSON value. -/
def ofJson (value : Json) : Read Settings :=
  let fields := form Content.readText readSizeContent
  match Content.ofJson value with
  | .map entries => (Content.readEntries fields entries).map ofValues
  | .seq items =>
    match fields.readList (.ok ()) "" 0 items with
    | .error why => .error why
    | .ok (values, []) => .ok (ofValues values)
    | .ok (_, _ :: _) => .error (.mismatch (.length items.length "fewer elements in array"))
  | c => Read.wrongType c.found "struct BuilderConfig"

/-- The parts of a document that make settings. -/
def parts : Yaml.Wanted :=
  .fields [("alias_prefix", .everything), ("variable_prefix", .everything),
    ("param_prefix", .everything), ("max_subquery_depth", .everything)]

/-- Reads settings from a YAML text. -/
def ofYamlText (text : String) : Read Settings :=
  (Yaml.Node.readDocument parts (form Yaml.Node.readText Yaml.Node.readSize) text).map ofValues

/-- Why a file gives no settings. -/
inductive FileFault
  /-- The file is not there, or is no text. -/
  | missing
  | malformed
  | invalid (found : List Violation)

/-- Reads settings from a file, given its text if it has one, and validates them. -/
def ofFile (text : Option String) : Except FileFault Settings :=
  match text with
  | none => .error .missing
  | some text =>
    match ofYamlText text with
    | .error _ => .error .malformed
    | .ok settings => settings.validated.mapError .invalid

/-- The settings as a document. -/
def toJson (s : Settings) : Json :=
  .obj [("alias_prefix", .str s.aliasStem), ("variable_prefix", .str s.variableStem),
    ("param_prefix", .str s.paramStem), ("max_subquery_depth", .int s.maxDepth)]

end GraphQuery.Settings
