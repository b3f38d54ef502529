import GraphQuery.Content
import GraphQuery.Json.Draft

/-!
# Reading values out of drafts

These readers walk a draft from left to right. A value of the wrong kind is reported as soon as its
first character shows it, a break where it stands, and of a value that nobody asks for only the
grammar counts.
-/

namespace GraphQuery.Json.Draft

open GraphQuery (Read)

/-- Refuses a draft that is not of the wanted kind. -/
def refuse {α : Type} (wanted : String) : Draft → Read α
  | null => Read.wrongType .null wanted
  | bool b => Read.wrongType (.bool b) wanted
  | int n => Read.wrongType (.int n) wanted
  | float x => Read.wrongType (.float x) wanted
  | str s => Read.wrongType (.str s) wanted
  | unreadable _ => Read.malformed
  | arr _ _ => Read.wrongType .seq wanted
  | obj _ _ => Read.wrongType .map wanted
  | tooDeep inner => inner.refuse wanted
  | broken why => Read.broken why

/-- The end of an array or object, or of a value that is left alone. -/
def reach : Option Break → Read Unit
  | none => .ok ()
  | some why => Read.broken why

/-- One of the two truth values. Null is none of them. -/
def readFlag : Draft → Read Bool
  | bool b => .ok b
  | d => d.refuse "a boolean"

mutual

/-- The content of a draft, if all of it can be read. -/
def readContent : Draft → Read Content
  | null => .ok .null
  | bool b => .ok (.bool b)
  | int n => .ok (.int n)
  | float x => .ok (.float x)
  | str s => .ok (.str s)
  | unreadable _ => Read.malformed
  | arr items stop => do
    let items ← readContentItems items
    reach stop
    return .seq items
  | obj members stop => do
    let entries ← readContentMembers members
    reach stop
    return .map entries
  | tooDeep _ => Read.malformed
  | broken why => Read.broken why

/-- Items as content, up to the first that cannot be read. -/
def readContentItems : List Draft → Read (List Content)
  | [] => .ok []
  | item :: rest => do
    let first ← item.readContent
    let others ← readContentItems rest
    return first :: others

/-- Members as content, in their order. A key that is no text stops the reading. -/
def readContentMembers : List (Option String × Draft) → Read (List (Content × Content))
  | [] => .ok []
  | (none, _) :: _ => Read.malformed
  | (some key, value) :: rest => do
    let value ← value.readContent
    let others ← readContentMembers rest
    return (.str key, value) :: others

end

/-- The JSON value of a draft. -/
def readValue (d : Draft) : Read Json := do
  let c ← d.readContent
  c.readJson

/-- Reads the items of an array from left to right. -/
def readList {α : Type} (read : Draft → Read α) : Draft → Read (List α)
  | arr items stop => do
    let values ← items.mapM read
    reach stop
    return values
  | tooDeep _ => Read.malformed
  | d => d.refuse "a sequence"

/-- Reads the members of an object, each name with its value. -/
def readPairs {α : Type} (read : Draft → Read α) : Draft → Read (List (String × α))
  | obj members stop => do
    let pairs ← members.mapM fun (key, value) => do
      match key with
      | none => Read.malformed
      | some name =>
        let a ← read value
        return (name, a)
    reach stop
    return pairs
  | tooDeep _ => Read.malformed
  | d => d.refuse "a map"

/-! ## Records -/

/-- Fills in the members from left to right. Members that belong to no field are left alone. -/
def fillMembers {ρ : Type} (form : Form Draft ρ) :
    List (Option String × Draft) → Read (Form Draft ρ)
  | [] => .ok form
  | (none, _) :: _ => Read.malformed
  | (some name, value) :: rest =>
    if form.has name then
      match form.fill name value with
      | .error why => .error why
      | .ok form => fillMembers form rest
    else
      match value.stop? with
      | some why => Read.broken why.ignored
      | none => fillMembers form rest

/-- Reads a record from an object, or from an array of its values that has no item too many. -/
def readRecord {ρ : Type} (name : String) (form : Form Draft ρ) : Draft → Read ρ
  | obj members stop =>
    match fillMembers form members with
    | .error why => .error why
    | .ok form => do
      reach stop
      form.close
  | arr items stop => do
    let owner := "struct " ++ name ++ " with " ++ elements form.size
    let (values, left) ← form.readList (reach stop) owner 0 items
    if !left.isEmpty then Read.malformed
    reach stop
    return values
  | tooDeep _ => Read.malformed
  | d => d.refuse ("struct " ++ name)

/-! ## Tagged records -/

/-- The alternative that a text names. -/
def readIdentifier {α : Type} (known : List (String × α)) : Draft → Read α
  | str name => Content.readName known name
  | d => d.refuse "variant identifier"

/-- Finds the tag and reads it on the spot; all else is kept as content. -/
def findTag {α : Type} (tag : String) (known : List (String × α)) (kind : Option α) :
    List (Option String × Draft) → Read (Option α × List (Content × Content))
  | [] => .ok (kind, [])
  | (none, _) :: _ => Read.malformed
  | (some name, value) :: rest =>
    if name = tag then
      match kind with
      | some _ => .error (.mismatch (.duplicate tag))
      | none => do
        let a ← readIdentifier known value
        findTag tag known (some a) rest
    else do
      let value ← value.readContent
      let (kind, others) ← findTag tag known kind rest
      return (kind, (.str name, value) :: others)

/-- Splits a tagged record into its alternative and the rest, which is read as a whole before any
field of it is looked at. -/
def readTagged {α : Type} (owner tag : String) (known : List (String × α)) :
    Draft → Read (Content.Tagged α)
  | obj members stop => do
    let (kind, others) ← findTag tag known none members
    reach stop
    match kind with
    | some a => return ⟨a, .map others⟩
    | none => .error (.mismatch (.missing tag))
  | arr [] stop => do
    reach stop
    .error (.mismatch (.missing tag))
  | arr (first :: rest) stop => do
    let a ← readIdentifier known first
    let items ← readContentItems rest
    reach stop
    return ⟨a, .seq items⟩
  | tooDeep _ => Read.malformed
  | d => d.refuse ("internally tagged enum " ++ owner)

end GraphQuery.Json.Draft
