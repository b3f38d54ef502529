/-!
# A place in a YAML text

A cursor holds the rest of the text and where it starts, since lines and columns carry meaning in
this notation. Any line break is read as one line feed, save for two separators that stay as they
are.
-/

namespace GraphQuery.Yaml

/-- Why a text is not in this notation is never told apart. -/
inductive Malformed
  | malformed
deriving DecidableEq, Repr

/-- Reading a part of a text, which can fail in one way only. -/
abbrev Scan := Except Malformed

/-- Gives up on the text. -/
def refuse {α : Type} : Scan α :=
  .error .malformed

/-- Spaces and tabs are blanks. Breaks are not. -/
def isBlank (c : Char) : Bool :=
  c = ' ' || c = '\t'

/-- Carriage return, line feed, next line, line separator, paragraph separator. -/
def isBreak (c : Char) : Bool :=
  c = '\r' || c = '\n' || c = '\u0085' || c = '\u2028' || c = '\u2029'

/-- A blank, a break, or the end of the text. -/
def endsWord : Option Char → Bool
  | none => true
  | some c => isBlank c || isBreak c

/-- A break, or the end of the text. -/
def endsLine : Option Char → Bool
  | none => true
  | some c => isBreak c

/-- Control characters other than tabs and breaks cannot stand in a text. -/
def isAllowed (c : Char) : Bool :=
  let n := c.toNat
  n = 0x09 || n = 0x0A || n = 0x0D || (0x20 ≤ n && n ≤ 0x7E) || n = 0x85
    || (0xA0 ≤ n && n ≤ 0xFFFD) || 0x10000 ≤ n

/-- How many bytes the characters take in UTF-8. -/
def byteCount (text : List Char) : Nat :=
  text.foldl (fun n c => n + c.utf8Size) 0

/-- A place in a text and the text after it. -/
structure Cursor where
  rest : List Char
  line : Nat
  /-- How many characters of the line lie before the cursor. -/
  column : Nat
  /-- How many bytes of the text lie before the cursor. -/
  offset : Nat

namespace Cursor

/-- The place before the first character. -/
def start (text : List Char) : Cursor :=
  ⟨text, 0, 0, 0⟩

/-- The character at the cursor, none at the end of the text. -/
def peek (c : Cursor) : Option Char :=
  c.rest.head?

/-- The character `n` places ahead. -/
def ahead (c : Cursor) (n : Nat) : Option Char :=
  c.rest[n]?

/-- Passes over characters of one line. -/
def skip (c : Cursor) (n : Nat) : Cursor :=
  ⟨c.rest.drop n, c.line, c.column + n, c.offset + byteCount (c.rest.take n)⟩

/-- Passes over a line break and gives what it stands for. -/
def skipBreak (c : Cursor) : List Char × Cursor :=
  match c.rest with
  | '\r' :: '\n' :: rest => (['\n'], ⟨rest, c.line + 1, 0, c.offset + 2⟩)
  | b :: rest =>
    if isBreak b then
      (if b = '\u2028' ∨ b = '\u2029' then [b] else ['\n'],
        ⟨rest, c.line + 1, 0, c.offset + b.utf8Size⟩)
    else ([], c)
  | [] => ([], c)

/-- Passes over the characters of the line that the predicate holds of. -/
def skipWhile (c : Cursor) (p : Char → Bool) : List Char × Cursor :=
  let run := c.rest.takeWhile p
  (run, c.skip run.length)

/-- Passes over the rest of a line. -/
def skipLine (c : Cursor) : Cursor :=
  (c.skipWhile fun ch => !isBreak ch).2

/-- Whether a line of three of these characters and nothing more starts here. -/
def startsMark (c : Cursor) (ch : Char) : Bool :=
  c.column = 0 && c.peek = some ch && c.ahead 1 = some ch && c.ahead 2 = some ch
    && endsWord (c.ahead 3)

/-- Whether a document starts or ends here. -/
def atDocumentMark (c : Cursor) : Bool :=
  c.startsMark '-' || c.startsMark '.'

end Cursor

end GraphQuery.Yaml
