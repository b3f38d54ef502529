import GraphQuery.Json.Value
import GraphQuery.Record

/-!
# Content: a document before its types are known

Documents of two notations, JSON and YAML, hold the same kinds of values. Content is what both have
in common: scalars, sequences, and maps whose keys may be any content and may repeat. The readers
here take a value of the type that is asked for out of it.
-/

namespace GraphQuery

/-- A value that has been read, before it is known what it should be. The keys of a map may be any
content. -/
inductive Content
  | null
  | bool (value : Bool)
  | int (value : Int)
  /-- The integer zero written with a minus, which is no position of anything. -/
  | minusZero
  | float (value : Float)
  | str (value : String)
  | seq (items : List Content)
  | map (entries : List (Content × Content))
deriving Inhabited

namespace Content

/-- How a message names the content. -/
def found : Content → Found
  | null => .null
  | bool b => .bool b
  | int n => .int n
  | minusZero => .int 0
  | float x => .float x
  | str s => .str s
  | seq _ => .seq
  | map _ => .map

mutual

/-- A JSON value as content. -/
def ofJson : Json → Content
  | .null => null
  | .bool b => bool b
  | .int n => int n
  | .float x => float x
  | .str s => str s
  | .arr items => seq (ofItems items)
  | .obj members => map (ofMembers members)

/-- Each item as content, in its place. -/
def ofItems : List Json → List Content
  | [] => []
  | item :: rest => ofJson item :: ofItems rest

/-- Each member as an entry. A key of JSON is always a text. -/
def ofMembers : List (String × Json) → List (Content × Content)
  | [] => []
  | (key, value) :: rest => (str key, ofJson value) :: ofMembers rest

end

mutual

/-- The number of values in the content, itself included and keys left out. -/
def nodes : Content → Nat
  | null | bool _ | int _ | minusZero | float _ | str _ => 1
  | seq items => 1 + nodesOfItems items
  | map entries => 1 + nodesOfEntries entries

/-- The values of a list, with all that is inside of them. -/
def nodesOfItems : List Content → Nat
  | [] => 0
  | item :: rest => item.nodes + nodesOfItems rest

/-- The values of a map, with all that is inside of them. -/
def nodesOfEntries : List (Content × Content) → Nat
  | [] => 0
  | (_, value) :: rest => value.nodes + nodesOfEntries rest

end

/-! ## Single values -/

/-- A text, and nothing that would only look like one when written. -/
def readText : Content → Read String
  | str s => .ok s
  | c => Read.wrongType c.found "a string"

/-- One of the two truth values. A number or a text is none. -/
def readFlag : Content → Read Bool
  | bool b => .ok b
  | c => Read.wrongType c.found "a boolean"

/-- Null stands for a value that is not there. -/
def readOption {α : Type} (read : Content → Read α) : Content → Read (Option α)
  | null => .ok none
  | c => (read c).map some

/-- Reads the items from left to right. -/
def readItems {α : Type} (read : Content → Read α) : List Content → Read (List α)
  | [] => .ok []
  | item :: rest => do
    let first ← read item
    let others ← readItems read rest
    return first :: others

/-- A sequence, each item of which is read the same way. -/
def readList {α : Type} (read : Content → Read α) : Content → Read (List α)
  | seq items => readItems read items
  | c => Read.wrongType c.found "a sequence"

mutual

/-- Content as a JSON value, which needs texts for keys. A number that JSON cannot write is null. -/
def readJson : Content → Read Json
  | null => .ok .null
  | bool b => .ok (.bool b)
  | int n => .ok (.int n)
  | minusZero => .ok (.int 0)
  | float x => .ok (if x.isFinite then .float x else .null)
  | str s => .ok (.str s)
  | seq items => (readJsonItems items).map .arr
  | map entries => (readJsonMembers [] entries).map .obj

/-- Items as JSON, up to the first that JSON cannot write. -/
def readJsonItems : List Content → Read (List Json)
  | [] => .ok []
  | item :: rest => do
    let first ← item.readJson
    let others ← readJsonItems rest
    return first :: others

/-- Adds the entries to the members that were read before them. -/
def readJsonMembers (members : List (String × Json)) :
    List (Content × Content) → Read (List (String × Json))
  | [] => .ok members
  | (key, value) :: rest => do
    let key ← key.readText
    let value ← value.readJson
    readJsonMembers (Json.insert members key value) rest

end

/-- A map from names to JSON values. -/
def readMembers : Content → Read (List (String × Json))
  | map entries => readJsonMembers [] entries
  | c => Read.wrongType c.found "a map"

/-! ## Records -/

/-- The field that a key names, by its name or by its position in the form. -/
def fieldName {ρ : Type} (form : Form Content ρ) : Content → Read (Option String)
  | str s => .ok (some s)
  | int n =>
    if 0 ≤ n then .ok (form.nameAt? n.toNat) else Read.wrongType (.int n) "field identifier"
  | c => Read.wrongType c.found "field identifier"

/-- Fills in the entries from left to right. -/
def fillEntries {ρ : Type} (form : Form Content ρ) :
    List (Content × Content) → Read (Form Content ρ)
  | [] => .ok form
  | (key, value) :: rest =>
    match fieldName form key with
    | .error why => .error why
    | .ok none => fillEntries form rest
    | .ok (some name) =>
      match form.fill name value with
      | .error why => .error why
      | .ok form => fillEntries form rest

/-- A record given by its named values. -/
def readEntries {ρ : Type} (form : Form Content ρ) (entries : List (Content × Content)) : Read ρ :=
  match fillEntries form entries with
  | .error why => .error why
  | .ok form => form.close

/-- A record given by its values in order, of which there may not be too many. -/
def readPositions {ρ : Type} (owner : String) (form : Form Content ρ) (items : List Content) :
    Read ρ :=
  match form.readList (.ok ()) (owner ++ " with " ++ elements form.size) 0 items with
  | .error why => .error why
  | .ok (values, []) => .ok values
  | .ok (_, _ :: _) =>
    .error (.mismatch (.length items.length (elements form.size ++ " in sequence")))

/-- A record of this name. -/
def readRecord {ρ : Type} (name : String) (form : Form Content ρ) : Content → Read ρ
  | map entries => readEntries form entries
  | seq items => readPositions ("struct " ++ name) form items
  | c => Read.wrongType c.found ("struct " ++ name)

/-! ## Alternatives

An alternative is written as a map with one entry, its name and what belongs to it, or as the bare
name when nothing belongs to it.
-/

/-- The alternative of a name. -/
def readName {α : Type} (known : List (String × α)) (name : String) : Read α :=
  match known.find? fun entry => entry.1 == name with
  | some (_, a) => .ok a
  | none => .error (.mismatch (.unknownName name (known.map Prod.fst)))

/-- The alternative that content names, by its name or by its position. -/
def readIdentifier {α : Type} (known : List (String × α)) : Content → Read α
  | str name => readName known name
  | int n =>
    if 0 ≤ n then
      match known[n.toNat]? with
      | some (_, a) => .ok a
      | none =>
        .error (.mismatch (.value (.int n) ("variant index 0 <= i < " ++ toString known.length)))
    else Read.wrongType (.int n) "variant identifier"
  | c => Read.wrongType c.found "variant identifier"

/-- The alternative that content names, by its name alone. -/
def readNamed {α : Type} (known : List (String × α)) : Content → Read α
  | str name => readName known name
  | c => Read.wrongType c.found "variant identifier"

/-- An alternative and what belongs to it. -/
def readChoice {α : Type} (known : List (String × α)) : Content → Read (α × Option Content)
  | map [(name, value)] => do
    let a ← readIdentifier known name
    return (a, some value)
  | map _ => .error (.mismatch (.value .map "map with a single key"))
  | str name => do
    let a ← readName known name
    return (a, none)
  | c => Read.wrongType c.found "string or map"

/-- An alternative to which nothing belongs. -/
def readBare {α : Type} (known : List (String × α)) (c : Content) : Read α := do
  let (a, value) ← readChoice known c
  match value with
  | none | some null | some (map []) => return a
  | some other => Read.wrongType other.found "unit"

/-- The value that belongs to an alternative. -/
def readOnly {α : Type} (read : Content → Read α) : Option Content → Read α
  | some value => read value
  | none => Read.wrongType .bareName "newtype variant"

/-- How the values of an alternative's record may be written. -/
inductive RecordForm
  | named
  | namedOrListed
deriving DecidableEq, Repr

/-- The record that belongs to an alternative. -/
def readFields {ρ : Type} (allowed : RecordForm) (owner : String) (form : Form Content ρ) :
    Option Content → Read ρ
  | some (map entries) => readEntries form entries
  | some (seq items) =>
    match allowed with
    | .namedOrListed => readPositions ("struct variant " ++ owner) form items
    | .named => Read.wrongType .seq "struct variant"
  | some other => Read.wrongType other.found "struct variant"
  | none => Read.wrongType .bareName "struct variant"

/-! ## Tagged records

A tagged record bears the name of its alternative in a field beside the others, or as the first
item of a list.
-/

/-- The alternative of a tagged record, and its other entries or items. -/
structure Tagged (α : Type) where
  kind : α
  body : Content

/-- Finds the tag among the entries; `kind` is the tag met so far. -/
def findTag {α : Type} (tag : String) (read : Content → Read α) (kind : Option α) :
    List (Content × Content) → Read (Option α × List (Content × Content))
  | [] => .ok (kind, [])
  | (key, value) :: rest =>
    if isTag key then
      match kind with
      | some _ => .error (.mismatch (.duplicate tag))
      | none => do
        let a ← read value
        findTag tag read (some a) rest
    else do
      let (kind, others) ← findTag tag read kind rest
      return (kind, (key, value) :: others)
where
  isTag : Content → Bool
    | str name => name == tag
    | _ => false

/-- Splits a tagged record into its alternative and the rest. -/
def readTagged {α : Type} (owner tag : String) (readKind : Content → Read α) :
    Content → Read (Tagged α)
  | map entries => do
    let (kind, others) ← findTag tag readKind none entries
    match kind with
    | some a => return ⟨a, map others⟩
    | none => .error (.mismatch (.missing tag))
  | seq [] => .error (.mismatch (.missing tag))
  | seq (first :: rest) => do
    let a ← readKind first
    return ⟨a, seq rest⟩
  | c => Read.wrongType c.found ("internally tagged enum " ++ owner)

/-- The record that follows a tag. -/
def readBody {ρ : Type} (owner : String) (form : Form Content ρ) (body : Content) : Read ρ :=
  readFields .namedOrListed owner form (some body)

/-- Nothing follows the tag: entries are left alone, and items are too many. -/
def readEmptyBody : Content → Read Unit
  | seq (_ :: rest) =>
    .error (.mismatch (.length (rest.length + 1) (elements 0 ++ " in sequence")))
  | _ => .ok ()

end Content

end GraphQuery
