import GraphQuery.Yaml.Outline

/-!
# Nodes

A node is an outline in which every mention has been followed to the anchored node that it stands
for, the last one in the document that bears its number. Only what a reader asks for is followed, so
a node may mention itself where nobody looks. What is asked for must not nest too deep, and must not
follow more mentions than the size of the document allows.
-/

namespace GraphQuery.Yaml

/-- A value of a document, with its anchors and mentions resolved. -/
inductive Node
  /-- Only a plain scalar may stand for anything but its text. -/
  | scalar (text : String) (plain : Bool)
  | seq (items : List Node)
  | map (entries : List (Node × Node))
deriving Inhabited

/-- What a reader asks for. -/
inductive Wanted
  | everything
  /-- The entries of a mapping, as far as their keys are known. -/
  | fields (known : List (String × Wanted))
  /-- The values of a mapping, whatever their keys. -/
  | values (each : Wanted)

/-- A reader of a document, with the number of mentions that may still be followed. -/
abbrev Following := StateT Nat Scan

/-- Follows a mention, if there is one, to the first node with its number. -/
def follow (anchors : List (Nat × Outline)) : Outline → Following Outline
  | .mention number => do
    match ← get with
    | 0 => throw .malformed
    | left + 1 =>
      set left
      match anchors.find? fun entry => entry.1 = number with
      | some (_, node) => return node
      | none => throw .malformed
  | .anchored _ node => return node
  | o => return o

/-- The text of a scalar. -/
def Node.text? : Node → Option String
  | .scalar text _ => some text
  | _ => none

/-- Takes what is wanted out of an outline, in which `depth` collections may be nested. -/
def unfold (anchors : List (Nat × Outline)) (depth : Nat) (wanted : Wanted) (outline : Outline) :
    Following Node := do
  match ← follow anchors outline, depth, wanted with
  | .scalar text plain, _, _ => return .scalar text plain
  | .seq items, depth + 1, .everything =>
    return .seq (← items.mapM (unfold anchors depth .everything))
  | .map entries, depth + 1, .everything =>
    return .map (← entries.mapM fun (key, value) => do
      let key ← unfold anchors depth .everything key
      return (key, ← unfold anchors depth .everything value))
  | .map entries, depth + 1, .values each =>
    return .map (← entries.mapM fun (key, value) => do
      let key ← unfold anchors depth .everything key
      return (key, ← unfold anchors depth each value))
  -- what stands behind an unknown key is not even followed
  | .map entries, depth + 1, .fields known =>
    let found ← entries.mapM fun (key, value) => do
      let key ← unfold anchors depth .everything key
      match key.text? with
      | none => throw .malformed
      | some name =>
        match known.find? fun field => field.1 = name with
        | some (_, wanted) => return some (key, ← unfold anchors depth wanted value)
        | none => return none
    return .map (found.filterMap id)
  | _, _, _ => throw .malformed

/-- Collections may be nested this deep. -/
def depthLimit : Nat := 128

/-- So many mentions may be followed for each mark of the document. -/
def mentionsPerMark : Nat := 100

/-- What is wanted of the document of a text, none if the text is empty. -/
def Node.ofText (wanted : Wanted) (text : String) : Scan (Option Node) := do
  match ← Outline.ofText text with
  | none => return none
  | some outline =>
    let latestFirst := outline.anchors.reverse
    let (node, _) ← (unfold latestFirst depthLimit wanted outline).run
      (mentionsPerMark * outline.marks)
    return some node

end GraphQuery.Yaml
