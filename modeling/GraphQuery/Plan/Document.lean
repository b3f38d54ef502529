import GraphQuery.Json.Reader
import GraphQuery.Plan.Reader
import GraphQuery.Yaml.Plain

/-!
# Reading a plan from a text

In JSON the plan itself and its declarations are read straight from the text, so the first fault in
the text is the one reported. A statement or an entity declaration is taken up as a whole once its
tag is known.

In YAML the names of declarations may be any scalars. Statements and entity declarations are as
strict about their values as in JSON, and what they are has to be said by name; only inside of them
the position of a name will do. Keys that are not known are left alone, with whatever stands behind
them, save inside of statements and entity declarations, which are read as a whole.
-/

namespace GraphQuery.Plan

open Json (Draft)
open Yaml (Node Wanted)

/-! ## From JSON -/

/-- A statement from JSON, its body read once the operation is known. -/
def Statement.ofDraft (d : Draft) : Read Statement := do
  let tagged ← d.readTagged "PlanStatement" "op" Statement.kinds
  Statement.readBody tagged.kind (tagged.body.nodes + 1) tagged.body

/-- The declaration of an entity from JSON, its body read once the kind is known. -/
def EntityDecl.ofDraft (d : Draft) : Read EntityDecl := do
  let tagged ← d.readTagged "EntityDecl" "kind" EntityDecl.kinds
  EntityDecl.readBody tagged.kind tagged.body

/-- The declaration of a parameter from JSON. Any value will do, and it is no point unless it is
said to be one. -/
def ParamDecl.ofDraft (d : Draft) : Read ParamDecl := do
  let (value, isPoint, ()) ← d.readRecord "ParamDecl"
    (.required "value" Draft.readValue <| .withDefault "point" Draft.readFlag false <| .nil)
  return ⟨value, isPoint⟩

/-- A plan from JSON. Only the statements have to be there. -/
def ofDraft (d : Draft) : Read Plan := do
  let (entities, params, statements, ()) ← d.readRecord "BuildPlan"
    (.withDefault "entities" (Draft.readPairs EntityDecl.ofDraft) [] <|
      .withDefault "params" (Draft.readPairs ParamDecl.ofDraft) [] <|
      .required "statements" (Draft.readList Statement.ofDraft) <| .nil)
  return ⟨.ofList entities, .ofList params, statements⟩

/-- Reads a text that holds one plan and nothing after it. -/
def ofJsonText (text : String) : Read Plan := do
  let (draft, after) := Draft.ofText text
  let plan ← ofDraft draft
  Draft.reach after
  return plan

/-! ## From YAML -/

/-- A statement from YAML. The operation has to be given by its name. -/
def Statement.ofNode (n : Node) : Read Statement := do
  let c ← n.readContent
  let tagged ← c.readTagged "PlanStatement" "op" (Content.readNamed Statement.kinds)
  Statement.readBody tagged.kind (tagged.body.nodes + 1) tagged.body

/-- The declaration of an entity from YAML. The kind has to be given by its name. -/
def EntityDecl.ofNode (n : Node) : Read EntityDecl := do
  let c ← n.readContent
  let tagged ← c.readTagged "EntityDecl" "kind" (Content.readNamed EntityDecl.kinds)
  EntityDecl.readBody tagged.kind tagged.body

/-- The declaration of a parameter from YAML. The value is what JSON would make of it. -/
def ParamDecl.ofNode (n : Node) : Read ParamDecl := do
  let (value, isPoint, ()) ← n.readRecord
    (.required "value" Node.readJson <| .withDefault "point" Node.readFlag false <| .nil)
  return ⟨value, isPoint⟩

/-- The parts of a document that make a plan. -/
def parts : Wanted :=
  .fields [("entities", .values .everything),
    ("params", .values (.fields [("value", .everything), ("point", .everything)])),
    ("statements", .everything)]

/-- Reads a text that holds one plan. -/
def ofYamlText (text : String) : Read Plan := do
  let (entities, params, statements, ()) ← Node.readDocument parts
    (.withDefault "entities" (Node.readPairs EntityDecl.ofNode) [] <|
      .withDefault "params" (Node.readPairs ParamDecl.ofNode) [] <|
      .required "statements" (Node.readList Statement.ofNode) <| .nil) text
  return ⟨.ofList entities, .ofList params, statements⟩

end GraphQuery.Plan
