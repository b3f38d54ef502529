import GraphQuery.Text.Class

/-!
# Assignments

A line of a file of variables gives a variable its value. The value may stand in quotes, wholly or
in parts, and ends at the first space or tab outside quotes, after which only a comment may stand.
Outside single quotes a backslash escapes the next character, and a dollar sign mentions another
variable, whose value is not known to the line.
-/

namespace GraphQuery.Settings

open Text (isBlank dropBlanks dropBlanksRight isAlphanumeric)

/-- A piece of a value. -/
inductive Piece
  | char (value : Char)
  | mention (name : String)
deriving DecidableEq, Repr

/-- A variable and what it is given, with mentions of other variables still in it. -/
structure Assignment where
  name : String
  value : List Piece
deriving DecidableEq, Repr

namespace Assignment

/-- What surrounds a character of a value. -/
inductive Quote
  | bare
  | single
  | double
deriving DecidableEq, Repr

/-- Whether nothing but a comment follows. -/
def isOver (rest : List Char) : Bool :=
  match rest with
  | [] => true
  | c :: _ => c = '#'

/-- Whether nothing but a comment follows the end of a value. -/
def isOverAfterValue (rest : List Char) : Bool :=
  isOver (rest.dropWhile fun c => c = ' ' || c = '\t')

/-- The character that an escape stands for. -/
def unescape? (c : Char) : Option Char :=
  if "\\'\"$ ".toList.contains c then some c
  else if c = 'n' then some '\n'
  else none

/-- Puts a character in front of a value, if there is one. -/
def consChar (c : Char) (value : Option (List Piece)) : Option (List Piece) :=
  value.map (.char c :: ·)

/-- Puts a mention in front. The name was gathered with its last character first. -/
def consMention (name : List Char) (value : Option (List Piece)) : Option (List Piece) :=
  value.map (.mention (String.ofList name.reverse) :: ·)

mutual

/-- Reads a value, quotes or parts in quotes included. -/
def readValue : Quote → List Char → Option (List Piece)
  | .bare, [] => some []
  | _, [] => none
  | .single, c :: rest =>
    if c = '\'' then readValue .bare rest else consChar c (readValue .single rest)
  | .double, c :: rest =>
    if c = '$' then readMention .double [] rest
    else if c = '\\' then readEscape .double rest
    else if c = '"' then readValue .bare rest
    else consChar c (readValue .double rest)
  | .bare, c :: rest =>
    if c = '$' then readMention .bare [] rest
    else if c = '\\' then readEscape .bare rest
    else if c = '"' then readValue .double rest
    else if c = '\'' then readValue .single rest
    else if c = ' ' ∨ c = '\t' then if isOverAfterValue rest then some [] else none
    else consChar c (readValue .bare rest)

/-- Reads on after a backslash, which a value may end with. -/
def readEscape (quote : Quote) : List Char → Option (List Piece)
  | [] => if quote = .bare then some [] else none
  | c :: rest =>
    match unescape? c with
    | some c => consChar c (readValue quote rest)
    | none => none

/-- Reads on after a dollar sign. Letters and digits belong to the name; whatever ends it stands for
itself, be it a quote or a space. -/
def readMention (quote : Quote) (name : List Char) : List Char → Option (List Piece)
  | [] => if quote = .bare then consMention name (some []) else none
  | c :: rest =>
    if isAlphanumeric c then readMention quote (c :: name) rest
    else if c = '\x7b' ∧ name.isEmpty then readBraced quote [] rest
    else if c = '$' then consMention name (readMention quote [] rest)
    else consMention name (consChar c (readValue quote rest))

/-- Reads the rest of a name that stands in braces. -/
def readBraced (quote : Quote) (name : List Char) : List Char → Option (List Piece)
  | [] => none
  | c :: rest =>
    if c = '\x7d' then consMention name (readValue quote rest)
    else readBraced quote (c :: name) rest

end

/-- Reads the name of a variable. -/
def readName (line : List Char) : Option (List Char × List Char) :=
  match line with
  | c :: _ =>
    if c.isAlpha || c = '_' then
      some (line.span fun c => c.isAlphanum || c = '_' || c = '.')
    else none
  | [] => none

/-- Passes over an equals sign and the blanks around it. -/
def skipEquals (rest : List Char) : Option (List Char) :=
  match dropBlanks rest with
  | '=' :: rest => some (dropBlanks rest)
  | _ => none

/-- Reads a line that gives a variable its value. A word may mark the variable as exported. -/
def read (line : List Char) : Option Assignment := do
  let (name, rest) ← readName line
  let (name, rest) ← match skipEquals rest with
    | some rest => pure (name, rest)
    | none =>
      if name = "export".toList then do
        let (name, rest) ← readName (dropBlanks rest)
        pure (name, ← skipEquals rest)
      else none
  let value ← if isOver rest then pure [] else readValue .bare rest
  return ⟨String.ofList name, value⟩

/-- The assignments of some lines, up to the first line that cannot be read. -/
def ofLines : List (List Char) → List Assignment
  | [] => []
  | line :: rest =>
    let line := dropBlanks (dropBlanksRight line)
    if isOver line then ofLines rest
    else match read line with
      | some assignment => assignment :: ofLines rest
      | none => []

end Assignment

end GraphQuery.Settings
