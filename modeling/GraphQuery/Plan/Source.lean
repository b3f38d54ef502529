import GraphQuery.Plan.Compile
import GraphQuery.Plan.Document

/-!
# From the text of a plan to its build

A plan comes as a text in one of two notations; for a file, the end of its name tells which.
-/

namespace GraphQuery.Plan

/-- The notation a plan is written in. -/
inductive Format
  | json
  | yaml
deriving DecidableEq, Repr

/-- The last part of a path. -/
def fileName (path : String) : List Char :=
  ((path.toList.reverse.dropWhile (· = '/')).takeWhile (· ≠ '/')).reverse

/-- What follows the last dot of a file name. A dot at its start is part of the name. -/
def extension? (name : List Char) : Option (List Char) :=
  let ending := name.reverse.takeWhile (· ≠ '.')
  if ending.length + 1 < name.length then some ending.reverse else none

/-- Files with one of two endings are in YAML and all others in JSON. -/
def Format.ofPath (path : String) : Format :=
  match extension? (fileName path) with
  | some ending =>
    if ending = ['y', 'a', 'm', 'l'] ∨ ending = ['y', 'm', 'l'] then .yaml else .json
  | none => .json

/-- Why a plan has no outcome. -/
inductive Failure
  | json (why : Unread)
  | yaml
  /-- The file is not there, or is no text. -/
  | file
  | compile (why : Fault)
  | build (why : GraphQuery.Fault)

/-- Reads a plan from a text. -/
def ofText (format : Format) (text : String) : Except Failure Plan :=
  match format with
  | .json => (ofJsonText text).mapError .json
  | .yaml => (ofYamlText text).mapError fun _ => .yaml

/-- Reads a plan from a file, given its text if it has one. -/
def ofFile (path : String) (text : Option String) : Except Failure Plan :=
  match text with
  | none => .error .file
  | some text => ofText (.ofPath path) text

/-- Compiles a plan over a fresh arena and builds it. -/
def outcome (plan : Plan) (settings : Settings) : Except Failure Built := do
  let compiled ← (plan.compile ⟨0⟩).mapError .compile
  (compiled.build settings).mapError .build

end GraphQuery.Plan
