import GraphQuery.Yaml.Token

/-!
# Outlines

A text holds at most one document, and a document is one node. The outline of a node keeps the
anchors and mentions of the text, by numbers in place of names. An anchor is numbered by how many
names there are before it, so a name that is given again takes a number that another may have too. A
mention bears the number that its name has where it stands.
-/

namespace GraphQuery.Yaml

/-- A node as it is written. -/
inductive Outline
  /-- Only a plain scalar may stand for anything but its text. -/
  | scalar (text : String) (plain : Bool)
  | seq (items : List Outline)
  | map (entries : List (Outline × Outline))
  /-- A node with an anchor. -/
  | anchored (number : Nat) (node : Outline)
  | mention (number : Nat)
deriving Inhabited

namespace Outline

/-- What stands where nothing is written. -/
def empty : Outline :=
  scalar "" true

mutual

/-- How many marks write the outline: one for a scalar or a mention, two around a collection. -/
def marks : Outline → Nat
  | scalar _ _ => 1
  | seq items => 2 + marksOfItems items
  | map entries => 2 + marksOfEntries entries
  | anchored _ node => node.marks
  | mention _ => 1

/-- The marks of the items together. -/
def marksOfItems : List Outline → Nat
  | [] => 0
  | item :: rest => item.marks + marksOfItems rest

/-- The marks of the entries together, keys included. -/
def marksOfEntries : List (Outline × Outline) → Nat
  | [] => 0
  | (key, value) :: rest => key.marks + value.marks + marksOfEntries rest

end

mutual

/-- The anchored nodes with their numbers, in the order in which they start. -/
def anchors : Outline → List (Nat × Outline)
  | scalar _ _ | mention _ => []
  | seq items => anchorsOfItems items
  | map entries => anchorsOfEntries entries
  | anchored number node => (number, node) :: node.anchors

/-- The anchored nodes in the items, in their order. -/
def anchorsOfItems : List Outline → List (Nat × Outline)
  | [] => []
  | item :: rest => item.anchors ++ anchorsOfItems rest

/-- The anchored nodes in the entries. Those of a key come before those of its value. -/
def anchorsOfEntries : List (Outline × Outline) → List (Nat × Outline)
  | [] => []
  | (key, value) :: rest => key.anchors ++ value.anchors ++ anchorsOfEntries rest

end

end Outline

/-- The tokens that are left, and the names of anchors with their numbers, each name once. -/
structure Reading where
  tokens : List Token
  names : List (String × Nat)

/-- Reading tokens one by one, until one does not fit. -/
abbrev Parse := StateT Reading Scan

namespace Parse

/-- The next token, which stays where it is. -/
def peek : Parse (Option Token) := do
  return (← get).tokens.head?

/-- Passes over the next token. -/
def skip : Parse Unit :=
  modify fun r => { r with tokens := r.tokens.tail }

/-- Gives up on the tokens. -/
def fail {α : Type} : Parse α :=
  throw .malformed

/-- Passes over a token that has to be there. -/
def expect (t : Token) : Parse Unit := do
  if (← peek) = some t then skip else fail

/-- Whether one of these tokens, or the end of them all, is next. -/
def atOneOf (ts : List Token) : Parse Bool := do
  match ← peek with
  | none => return true
  | some t => return ts.contains t

/-- The number of a name. -/
def numberOf (name : String) : Parse Nat := do
  match (← get).names.find? fun entry => entry.1 = name with
  | some (_, number) => return number
  | none => fail

/-- Numbers a name by how many there are. -/
def number (name : String) : Parse Nat := do
  let names := (← get).names
  let others := names.filter fun entry => entry.1 ≠ name
  modify fun r => { r with names := (name, names.length) :: others }
  return names.length

end Parse

open Parse

/-- Where a node stands. -/
inductive Place
  /-- Between brackets. -/
  | flow
  | block
  /-- After a key, where a sequence need not be indented. -/
  | blockValue
deriving DecidableEq, Repr

mutual

/-- Reads a node with its anchor, if it has one. -/
def readNode (place : Place) : Nat → Parse Outline
  | 0 => fail
  | fuel + 1 => do
    match ← peek with
    | some (.mention name) =>
      skip
      return .mention (← numberOf name)
    | some (.anchor name) =>
      skip
      let number ← number name
      return .anchored number (← readBare place true fuel)
    | _ => readBare place false fuel

/-- Reads a node without an anchor. Where there was one the node itself may be empty. -/
def readBare (place : Place) (mayBeEmpty : Bool) : Nat → Parse Outline
  | 0 => fail
  | fuel + 1 => do
    match ← peek with
    | some (.scalar text plain) =>
      skip
      return .scalar text plain
    | some .flowSeqStart =>
      skip
      return .seq (← readFlowItems true fuel)
    | some .flowMapStart =>
      skip
      return .map (← readFlowEntries true fuel)
    -- no block starts between brackets
    | some .blockSeqStart =>
      if place = .flow then
        if mayBeEmpty then return .empty else fail
      else
        skip
        return .seq (← readBlockItems fuel)
    | some .blockMapStart =>
      if place = .flow then
        if mayBeEmpty then return .empty else fail
      else
        skip
        return .map (← readBlockEntries fuel)
    -- a dash in the column of the keys around it
    | some .blockEntry =>
      if place = .blockValue then return .seq (← readOpenItems fuel)
      else if mayBeEmpty then return .empty
      else fail
    | _ => if mayBeEmpty then return .empty else fail

/-- Reads a node unless one of these tokens shows that there is none. -/
def readUnless (place : Place) (stops : List Token) : Nat → Parse Outline
  | 0 => fail
  | fuel + 1 => do
    if ← atOneOf stops then return .empty else readNode place fuel

/-- The entries of a sequence in a column of its own. -/
def readBlockItems : Nat → Parse (List Outline)
  | 0 => fail
  | fuel + 1 => do
    match ← peek with
    | some .blockEntry =>
      skip
      let item ← readUnless .block [.blockEntry, .blockEnd] fuel
      let rest ← readBlockItems fuel
      return item :: rest
    | some .blockEnd =>
      skip
      return []
    | _ => fail

/-- The entries of a sequence in the column of the keys around it. -/
def readOpenItems : Nat → Parse (List Outline)
  | 0 => fail
  | fuel + 1 => do
    if (← peek) = some .blockEntry then
      skip
      let item ← readUnless .block [.blockEntry, .key, .value, .blockEnd] fuel
      let rest ← readOpenItems fuel
      return item :: rest
    else return []

/-- The entries of a mapping in a block. A key may stand without a value, which is then empty. -/
def readBlockEntries : Nat → Parse (List (Outline × Outline))
  | 0 => fail
  | fuel + 1 => do
    match ← peek with
    | some .key =>
      skip
      let key ← readUnless .blockValue [.key, .value, .blockEnd] fuel
      let value ← readValue .blockValue [.key, .value, .blockEnd] fuel
      let rest ← readBlockEntries fuel
      return (key, value) :: rest
    | some .blockEnd =>
      skip
      return []
    | _ => fail

/-- Reads what follows a colon, if there is one. -/
def readValue (place : Place) (stops : List Token) : Nat → Parse Outline
  | 0 => fail
  | fuel + 1 => do
    if (← peek) = some .value then
      skip
      readUnless place stops fuel
    else return .empty

/-- The items of a bracket, separated by commas, the last of which may have no item after it. An
item with a colon is a mapping of one entry. -/
def readFlowItems (first : Bool) : Nat → Parse (List Outline)
  | 0 => fail
  | fuel + 1 => do
    if (← peek) = some .flowSeqEnd then
      skip
      return []
    else
      if !first then expect .flowEntry
      match ← peek with
      | some .flowSeqEnd =>
        skip
        return []
      | some .key =>
        skip
        let key ← readUnless .flow [.value, .flowEntry, .flowSeqEnd] fuel
        let value ← readValue .flow [.flowEntry, .flowSeqEnd] fuel
        let rest ← readFlowItems false fuel
        return .map [(key, value)] :: rest
      | _ =>
        let item ← readNode .flow fuel
        let rest ← readFlowItems false fuel
        return item :: rest

/-- The entries of a brace. A key without a colon has an empty value. -/
def readFlowEntries (first : Bool) : Nat → Parse (List (Outline × Outline))
  | 0 => fail
  | fuel + 1 => do
    if (← peek) = some .flowMapEnd then
      skip
      return []
    else
      if !first then expect .flowEntry
      match ← peek with
      | some .flowMapEnd =>
        skip
        return []
      | some .key =>
        skip
        let key ← readUnless .flow [.value, .flowEntry, .flowMapEnd] fuel
        let value ← readValue .flow [.flowEntry, .flowMapEnd] fuel
        let rest ← readFlowEntries false fuel
        return (key, value) :: rest
      -- a node by itself is a key without a value
      | _ =>
        let key ← readNode .flow fuel
        let rest ← readFlowEntries false fuel
        return (key, .empty) :: rest

end

/-- Passes over the marks that end a document. -/
def skipEnds : List Token → List Token
  | .documentEnd :: rest => skipEnds rest
  | tokens => tokens

/-- Reads the only document; none if there are no tokens at all. -/
def readDocument (fuel : Nat) : Parse (Option Outline) := do
  match ← peek with
  | none => return none
  | some .documentStart =>
    skip
    let node ← readUnless .block [.documentStart, .documentEnd] fuel
    return some node
  | some _ =>
    let node ← readNode .block fuel
    return some node

/-- The outline of a text, none if the text is empty. Nothing may follow the document. -/
def Outline.ofText (text : String) : Scan (Option Outline) := do
  let tokens ← Token.ofText text
  let (outline, left) ← (readDocument (4 * tokens.length + 4)).run ⟨tokens, []⟩
  if (skipEnds left.tokens).isEmpty then return outline else refuse

end GraphQuery.Yaml
