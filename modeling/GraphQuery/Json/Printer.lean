import GraphQuery.Decimal.Layout
import GraphQuery.Json.Value

/-!
# Writing JSON

A value has two texts: the compact one without blanks, and the indented one with two blanks for
each level. Both escape only what a JSON string must escape and keep every other character.
-/

namespace GraphQuery.Json

/-- The escape of one character of a string. -/
def escapeChar (c : Char) : List Char :=
  if c = '"' then ['\\', '"']
  else if c = '\\' then ['\\', '\\']
  else if c = '\x08' then ['\\', 'b']
  else if c = '\x0c' then ['\\', 'f']
  else if c = '\n' then ['\\', 'n']
  else if c = '\r' then ['\\', 'r']
  else if c = '\t' then ['\\', 't']
  else if c.toNat < 0x20 then
    ['\\', 'u', '0', '0', Nat.digitChar (c.toNat / 16), Nat.digitChar (c.toNat % 16)]
  else [c]

/-- A string between its quotes. -/
def quoted (s : String) : String :=
  String.ofList ('"' :: (s.toList.flatMap escapeChar ++ ['"']))

/-- The text of a float; a number that JSON cannot write is null. -/
def floatText (x : Float) : String :=
  if x.isFinite then Decimal.text .json x else "null"

mutual

/-- The text without blanks. -/
def compact : Json → String
  | null => "null"
  | bool b => if b then "true" else "false"
  | int n => toString n
  | float x => floatText x
  | str s => quoted s
  | arr items => "[" ++ ",".intercalate (compactItems items) ++ "]"
  | obj members => "\x7b" ++ ",".intercalate (compactMembers members) ++ "\x7d"

/-- The items of an array, each as JSON text. -/
def compactItems : List Json → List String
  | [] => []
  | item :: rest => item.compact :: compactItems rest

/-- The members of an object, each as key, colon and value with nothing between them. -/
def compactMembers : List (String × Json) → List String
  | [] => []
  | (key, value) :: rest => (quoted key ++ ":" ++ value.compact) :: compactMembers rest

end

/-- A line break and the blanks of a level. -/
def lineBreak (level : Nat) : String :=
  String.ofList ('\n' :: List.replicate (2 * level) ' ')

mutual

/-- The text with one item or member on each line, inside `level` brackets. -/
def indented (level : Nat) : Json → String
  | arr (item :: rest) =>
    "[" ++ lineBreak (level + 1)
      ++ ("," ++ lineBreak (level + 1)).intercalate
          (item.indented (level + 1) :: indentedItems (level + 1) rest)
      ++ lineBreak level ++ "]"
  | obj ((key, value) :: rest) =>
    "\x7b" ++ lineBreak (level + 1)
      ++ ("," ++ lineBreak (level + 1)).intercalate
          ((quoted key ++ ": " ++ value.indented (level + 1)) :: indentedMembers (level + 1) rest)
      ++ lineBreak level ++ "\x7d"
  | null => "null"
  | bool b => if b then "true" else "false"
  | int n => toString n
  | float x => floatText x
  | str s => quoted s
  | arr [] => "[]"
  | obj [] => "\x7b\x7d"

/-- The items of an array, each as it looks at this level. -/
def indentedItems (level : Nat) : List Json → List String
  | [] => []
  | item :: rest => item.indented level :: indentedItems level rest

/-- The members of an object, each with a blank after the colon. -/
def indentedMembers (level : Nat) : List (String × Json) → List String
  | [] => []
  | (key, value) :: rest =>
    (quoted key ++ ": " ++ value.indented level) :: indentedMembers level rest

end

/-- The indented text of a whole document. -/
def pretty (value : Json) : String :=
  value.indented 0

end GraphQuery.Json
