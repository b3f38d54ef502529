import GraphQuery.Content
import GraphQuery.Decimal.Reader
import GraphQuery.Yaml.Node

/-!
# What a node stands for

A plain scalar may be a null, a boolean or a number, and any other scalar is its text. Where a
reader asks for a text, the text of any scalar will do.
-/

namespace GraphQuery.Yaml

/-- The ways to write that there is no value. -/
def isNull (text : String) : Bool :=
  text.isEmpty || text = "~" || text = "null" || text = "Null" || text = "NULL"

/-- The truth value of a word, in the spellings that count. -/
def flag? (text : String) : Option Bool :=
  if text = "true" ∨ text = "True" ∨ text = "TRUE" then some true
  else if text = "false" ∨ text = "False" ∨ text = "FALSE" then some false
  else none

/-! ## Integers -/

/-- The value of a digit, if the base has it. -/
def digit? (base : Nat) (c : Char) : Option Nat :=
  (hexDigit? c).filter fun d => d < base

/-- The number that digits of a base write. -/
def natOf? (base : Nat) (digits : List Char) : Option Nat :=
  if digits.isEmpty then none
  else digits.foldlM (fun n d => (digit? base d).map (n * base + ·)) 0

/-- A zero before other digits makes a text and not a number. -/
def hasLeadingZero (digits : List Char) : Bool :=
  match digits with
  | '0' :: d :: rest => (d :: rest).all Char.isDigit
  | _ => false

/-- The size of a number in some base, which a letter after a zero shows. -/
def magnitude? (text : List Char) : Option Nat :=
  match text with
  | '0' :: 'x' :: rest => natOf? 16 rest
  | '0' :: 'o' :: rest => natOf? 8 rest
  | '0' :: 'b' :: rest => natOf? 2 rest
  | digits => if hasLeadingZero digits then none else natOf? 10 digits

/-- An integer with a sign or without. -/
def integer? (text : List Char) : Option Int :=
  match text with
  | '+' :: rest => (magnitude? rest).map Int.ofNat
  | '-' :: rest => (magnitude? rest).map fun n => -Int.ofNat n
  | rest => (magnitude? rest).map Int.ofNat

/-- Integers beyond two words are no longer read as integers. -/
def fitsTwoWords (n : Int) : Bool :=
  -(Word.signedEnd * Word.unsignedEnd : Int) ≤ n && n < Word.unsignedEnd * Word.unsignedEnd

/-! ## Numbers with a point -/

/-- The float above all others. -/
def infinity : Float :=
  Float.ofBits 0x7FF0000000000000

/-- The text without the sign in front of it. -/
def dropSign (text : List Char) : List Char :=
  match text with
  | '+' :: rest | '-' :: rest => rest
  | rest => rest

/-- A floating-point number; one that would be infinite has to be written as such. -/
def float? (text : String) : Option Float :=
  let chars := text.toList
  let unsigned := match chars with
    | '+' :: rest => rest
    | rest => rest
  let word := String.ofList unsigned
  if hasLeadingZero (dropSign chars) then none
  else if chars ≠ unsigned ∧ (unsigned.head? = some '+' ∨ unsigned.head? = some '-') then none
  else if word = ".inf" ∨ word = ".Inf" ∨ word = ".INF" then some infinity
  else if text = "-.inf" ∨ text = "-.Inf" ∨ text = "-.INF" then some (-infinity)
  else if text = ".nan" ∨ text = ".NaN" ∨ text = ".NAN" then some (Float.ofBits 0x7FF8000000000000)
  else (Decimal.read? word).filter Float.isFinite

/-- What a plain scalar stands for. An integer too long for a word is a fault. -/
def readPlainScalar (text : String) : Read Content :=
  if isNull text then .ok .null
  else match flag? text with
    | some b => .ok (.bool b)
    | none =>
      match (integer? text.toList).filter fitsTwoWords with
      | some n =>
        if n = 0 ∧ text.toList.head? = some '-' then .ok .minusZero
        else if Word.fits n then .ok (.int n)
        else Read.malformed
      | none =>
        match float? text with
        | some x => .ok (.float x)
        | none => .ok (.str text)

namespace Node

mutual

/-- The content of a node. -/
def readContent : Node → Read Content
  | scalar text true => readPlainScalar text
  | scalar text false => .ok (.str text)
  | seq items => (readContentItems items).map .seq
  | map entries => (readContentEntries entries).map .map

/-- Items as content, up to the first that has none. -/
def readContentItems : List Node → Read (List Content)
  | [] => .ok []
  | item :: rest => do
    let first ← item.readContent
    let others ← readContentItems rest
    return first :: others

/-- Entries as content, keys included. No key is asked to be a text. -/
def readContentEntries : List (Node × Node) → Read (List (Content × Content))
  | [] => .ok []
  | (key, value) :: rest => do
    let key ← key.readContent
    let value ← value.readContent
    let others ← readContentEntries rest
    return (key, value) :: others

end

/-- The text of a scalar, whatever else it might stand for. -/
def readText (n : Node) : Read String :=
  match n.text? with
  | some text => .ok text
  | none => Read.malformed

mutual

/-- A node as a JSON value, with the texts of scalars as keys. -/
def readJson : Node → Read Json
  | scalar text plain => do
    let c ← (scalar text plain).readContent
    c.readJson
  | seq items => (readJsonItems items).map .arr
  | map entries => (readJsonEntries [] entries).map .obj

/-- Items as JSON, up to the first that has none. -/
def readJsonItems : List Node → Read (List Json)
  | [] => .ok []
  | item :: rest => do
    let first ← item.readJson
    let others ← readJsonItems rest
    return first :: others

/-- Entries as members, added one by one. A key that comes again replaces the value it had. -/
def readJsonEntries (members : List (String × Json)) :
    List (Node × Node) → Read (List (String × Json))
  | [] => .ok members
  | (key, value) :: rest => do
    let key ← key.readText
    let value ← value.readJson
    readJsonEntries (Json.insert members key value) rest

end

/-- One of the two truth values. Quotes around the word make it a text. -/
def readFlag : Node → Read Bool
  | scalar text true =>
    match flag? text with
    | some b => .ok b
    | none => Read.malformed
  | _ => Read.malformed

/-- A size that fits 64 bits. -/
def readSize : Node → Read Nat
  | scalar text true =>
    match integer? text.toList with
    | some n =>
      if 0 ≤ n ∧ Word.fits n ∧ text.toList.head? ≠ some '-' then .ok n.toNat else Read.malformed
    | none => Read.malformed
  | _ => Read.malformed

/-! ## Collections

Where a collection is asked for, a plain scalar without text is an empty one.
-/

/-- A sequence, each item of which is read the same way. -/
def readList {α : Type} (read : Node → Read α) : Node → Read (List α)
  | seq items => items.mapM read
  | scalar "" true => .ok []
  | _ => Read.malformed

/-- Entries whose keys are texts. -/
def readPairs {α : Type} (read : Node → Read α) : Node → Read (List (String × α))
  | map entries => entries.mapM fun (key, value) => do
    let name ← key.readText
    let a ← read value
    return (name, a)
  | scalar "" true => .ok []
  | _ => Read.malformed

/-- Fills in the entries from left to right. -/
def fillEntries {ρ : Type} (form : Form Node ρ) : List (Node × Node) → Read (Form Node ρ)
  | [] => .ok form
  | (key, value) :: rest =>
    match key.readText with
    | .error why => .error why
    | .ok name =>
      match form.fill name value with
      | .error why => .error why
      | .ok form => fillEntries form rest

/-- A record, which has to be a mapping. -/
def readRecord {ρ : Type} (form : Form Node ρ) : Node → Read ρ
  | map entries =>
    match fillEntries form entries with
    | .error why => .error why
    | .ok form => form.close
  | scalar "" true => form.close
  | _ => Read.malformed

/-- The record of a whole text, of which only what is wanted is looked at. An empty text is a record
without entries. -/
def readDocument {ρ : Type} (wanted : Wanted) (form : Form Node ρ) (text : String) : Read ρ :=
  match Node.ofText wanted text with
  | .error _ => Read.malformed
  | .ok none => form.close
  | .ok (some node) => node.readRecord form

end Node

end GraphQuery.Yaml
