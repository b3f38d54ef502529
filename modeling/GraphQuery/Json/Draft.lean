import GraphQuery.Json.Number
import GraphQuery.Json.Value

/-!
# Drafts: what a text says before anyone asks for a type

A text that should hold a document can fail in two ways: it may stop being JSON, or it may hold the
wrong kind of value. Which failure counts is decided by the place that comes first in the text, and
a value nobody asks for is only checked for its grammar. So the text is first turned into a draft,
a tree that keeps the place where its grammar breaks, and a reader walks the draft from left to
right and meets faults of both kinds in the order of the text.
-/

namespace GraphQuery.Json

/-- A value as the text gives it, up to the first break. -/
inductive Draft
  | null
  | bool (value : Bool)
  | int (value : Int)
  | float (value : Float)
  | str (value : String)
  /-- A well-formed scalar that stands for no value: a number beyond the doubles, or a string with
  one half of a surrogate pair. It is a fault only where the value is asked for. -/
  | unreadable (stop : Option Break)
  /-- After a comma there is always one more item, which may be broken. -/
  | arr (items : List Draft) (stop : Option Break)
  /-- A key that stands for no string is absent. -/
  | obj (members : List (Option String × Draft)) (stop : Option Break)
  /-- An array or object inside too many others, a fault only where the value is asked for. -/
  | tooDeep (inner : Draft)
  | broken (why : Break)
deriving Inhabited

/-- Arrays and objects may be nested this deep. -/
def depthLimit : Nat := 127

namespace Draft

/-- The break inside a value. When there is one, nothing after it has been read. -/
def stop? : Draft → Option Break
  | null | bool _ | int _ | float _ | str _ => none
  | unreadable stop | arr _ stop | obj _ stop => stop
  | tooDeep inner => inner.stop?
  | broken why => some why

end Draft

/-! ## Strings -/

/-- One piece of a string: a character of the text, or a code unit in an escape. -/
inductive Piece
  | char (value : Char)
  | unit (value : Nat)
deriving DecidableEq, Repr

/-- The value of one hexadecimal digit, small or capital. -/
def hexValue? (c : Char) : Option Nat :=
  if c.isDigit then some (c.toNat - '0'.toNat)
  else if 'a' ≤ c ∧ c ≤ 'f' then some (c.toNat - 'a'.toNat + 10)
  else if 'A' ≤ c ∧ c ≤ 'F' then some (c.toNat - 'A'.toNat + 10)
  else none

/-- The code unit that four hexadecimal digits name. -/
def codeUnit? (a b c d : Char) : Option Nat := do
  return (((← hexValue? a) * 16 + (← hexValue? b)) * 16 + (← hexValue? c)) * 16 + (← hexValue? d)

/-- A code unit that needs a second one after it. -/
def isHighSurrogate (unit : Nat) : Bool :=
  0xD800 ≤ unit && unit < 0xDC00

/-- A code unit that only means something after a high surrogate. -/
def isLowSurrogate (unit : Nat) : Bool :=
  0xDC00 ≤ unit && unit < 0xE000

/-- The character of a surrogate pair. -/
def pairChar (high low : Nat) : Char :=
  Char.ofNat (0x10000 + (high - 0xD800) * 0x400 + (low - 0xDC00))

/-- What a single-letter escape stands for. -/
def simpleEscape? (c : Char) : Option Char :=
  if c = '"' then some '"'
  else if c = '\\' then some '\\'
  else if c = '/' then some '/'
  else if c = 'b' then some '\x08'
  else if c = 'f' then some '\x0c'
  else if c = 'n' then some '\n'
  else if c = 'r' then some '\r'
  else if c = 't' then some '\t'
  else none

/-- An escape with too little text behind it is cut short; four bytes are enough to judge it. -/
def shortEscape (rest : List Char) : Break :=
  if (String.ofList rest).utf8ByteSize < 4 then .cutShort else .malformed

/-- Reads the pieces of a string after its opening quote. -/
def readPieces : List Char → List Piece × Option Break × List Char
  | [] => ([], some .cutShort, [])
  | '"' :: rest => ([], none, rest)
  | '\\' :: [] => ([], some .cutShort, [])
  | '\\' :: 'u' :: a :: b :: c :: d :: rest =>
    match codeUnit? a b c d with
    | none => ([], some .malformed, [])
    | some unit =>
      let (pieces, stop, after) := readPieces rest
      (.unit unit :: pieces, stop, after)
  -- fewer than four characters are left
  | '\\' :: 'u' :: rest => ([], some (shortEscape rest), [])
  | '\\' :: c :: rest =>
    match simpleEscape? c with
    | none => ([], some .malformed, [])
    | some escaped =>
      let (pieces, stop, after) := readPieces rest
      (.char escaped :: pieces, stop, after)
  | c :: rest =>
    if c.toNat < 0x20 then ([], some .malformed, [])
    else
      let (pieces, stop, after) := readPieces rest
      (.char c :: pieces, stop, after)

/-- The text that the pieces stand for, none if a half of a surrogate pair stands alone. The last
piece of a string that was not closed may still have found its partner. -/
def assemble (closed : Bool) : List Piece → Option (List Char)
  | [] => some []
  | .char c :: rest => (assemble closed rest).map (c :: ·)
  | .unit u :: .unit v :: rest =>
    if isHighSurrogate u then
      if isLowSurrogate v then (assemble closed rest).map (pairChar u v :: ·) else none
    else if isLowSurrogate u then none
    else (assemble closed (.unit v :: rest)).map (Char.ofNat u :: ·)
  | .unit u :: rest =>
    if isHighSurrogate u then if rest.isEmpty && !closed then some [] else none
    else if isLowSurrogate u then none
    else (assemble closed rest).map (Char.ofNat u :: ·)

/-- A string as read: its text, if it stands for one, and the break if it was not closed. -/
structure ReadString where
  text : Option String
  stop : Option Break

/-- Reads a string after its opening quote. -/
def readString (text : List Char) : ReadString × List Char :=
  let (pieces, stop, after) := readPieces text
  (⟨(assemble stop.isNone pieces).map String.ofList, stop⟩, after)

/-! ## Values -/

/-- JSON knows four blanks and no others. -/
def isBlank (c : Char) : Bool :=
  c = ' ' || c = '\n' || c = '\t' || c = '\r'

/-- What is left of a text from its first character that is no blank. -/
def skipBlanks (text : List Char) : List Char :=
  text.dropWhile isBlank

/-- Reads the rest of a word whose first letter has chosen its meaning. -/
def readWord (value : Draft) : List Char → List Char → Draft × List Char
  | [], rest => (value, rest)
  | _ :: _, [] => (.broken .cutShort, [])
  | w :: word, c :: rest => if c = w then readWord value word rest else (.broken .malformed, [])

/-- A number too large for a double can still be passed over, but not read. -/
def Numeral.toDraft : Numeral → Draft
  | .int n => .int n
  | .float x => .float x
  | .outOfRange => .unreadable none
  | .broken why => .broken why

/-- A string can be cut short, or it can end well and hold something that is no character. -/
def ReadString.toDraft : ReadString → Draft
  | ⟨none, stop⟩ => .unreadable stop
  | ⟨some _, some why⟩ => .broken why
  | ⟨some text, none⟩ => .str text

/-- An array or object that `level` others enclose. -/
def nested (level : Nat) (container : Draft) : Draft :=
  if level < depthLimit then container else .tooDeep container

mutual

/-- Reads one value inside `level` brackets. -/
def readValue (fuel level : Nat) (text : List Char) : Draft × List Char :=
  match fuel with
  | 0 => (.broken .malformed, [])
  | fuel + 1 =>
    match skipBlanks text with
    | [] => (.broken .cutShort, [])
    | 'n' :: rest => readWord .null ['u', 'l', 'l'] rest
    | 't' :: rest => readWord (.bool true) ['r', 'u', 'e'] rest
    | 'f' :: rest => readWord (.bool false) ['a', 'l', 's', 'e'] rest
    | '"' :: rest =>
      let (s, after) := readString rest
      (s.toDraft, after)
    | '[' :: rest =>
      match skipBlanks rest with
      | ']' :: after => (nested level (.arr [] none), after)
      -- the text ends where an item or the bracket was to come
      | [] => (nested level (.arr [] (some .cutShort)), [])
      | rest =>
        let (items, stop, after) := readItems fuel (level + 1) rest
        (nested level (.arr items stop), after)
    | '\x7b' :: rest =>
      match skipBlanks rest with
      | '\x7d' :: after => (nested level (.obj [] none), after)
      | rest =>
        let (members, stop, after) := readMembers fuel (level + 1) rest
        (nested level (.obj members stop), after)
    | c :: rest =>
      if c = '-' ∨ c.isDigit then
        let (number, after) := readNumber (c :: rest)
        (number.toDraft, after)
      else (.broken .malformed, [])

/-- Reads the items of an array up to its closing bracket. -/
def readItems (fuel level : Nat) (text : List Char) : List Draft × Option Break × List Char :=
  match fuel with
  | 0 => ([], some .malformed, [])
  | fuel + 1 =>
    let (item, rest) := readValue fuel level text
    match item.stop? with
    | some why => ([item], some why, [])
    | none =>
      match skipBlanks rest with
      | ',' :: rest =>
        let (items, stop, after) := readItems fuel level rest
        (item :: items, stop, after)
      | ']' :: after => ([item], none, after)
      | [] => ([item], some .cutShort, [])
      | _ => ([item], some .malformed, [])

/-- Reads the members of an object up to its closing brace. -/
def readMembers (fuel level : Nat) (text : List Char) :
    List (Option String × Draft) × Option Break × List Char :=
  match fuel with
  | 0 => ([], some .malformed, [])
  | fuel + 1 =>
    match skipBlanks text with
    | '"' :: rest =>
      let (key, rest) := readString rest
      match key.text, key.stop with
      | some _, some why => ([], some why, [])
      -- a key that is no text, and that breaks off
      | none, some why => ([(none, .broken why)], some why, [])
      -- the value is read also after a key that is no text
      | name, none =>
        match skipBlanks rest with
        | ':' :: rest =>
          let (value, rest) := readValue fuel level rest
          match value.stop? with
          | some why => ([(name, value)], some why, [])
          | none =>
            match skipBlanks rest with
            | ',' :: rest =>
              let (members, stop, after) := readMembers fuel level rest
              ((name, value) :: members, stop, after)
            | '\x7d' :: after => ([(name, value)], none, after)
            | [] => ([(name, value)], some .cutShort, [])
            | _ => ([(name, value)], some .malformed, [])
        | [] => ([(name, .broken .cutShort)], some .cutShort, [])
        | _ => ([(name, .broken .malformed)], some .malformed, [])
    | [] => ([], some .cutShort, [])
    | _ => ([], some .malformed, [])

end

/-- The draft of a text, and the break if more than blanks follow the value. Each bracket and each
comma uses up two units of fuel at most. -/
def Draft.ofText (text : String) : Draft × Option Break :=
  let chars := text.toList
  let (value, rest) := readValue (2 * chars.length + 2) 0 chars
  (value, if (skipBlanks rest).isEmpty then none else some .malformed)

end GraphQuery.Json
