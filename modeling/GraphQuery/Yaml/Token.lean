import GraphQuery.Yaml.Scalar

/-!
# Tokens

In block style, collections are marked by indentation alone, and a mapping shows only when a colon
follows its first key. The lexer therefore remembers where a key might have started. When the colon
comes, it puts the marks of the key and, if the column is new, of the mapping in front of what it
has read since. Columns that end put marks for the end of their collections.
-/

namespace GraphQuery.Yaml

/-- What the text is made of. Indentation and line breaks have become tokens, or have gone. -/
inductive Token
  | documentStart
  | documentEnd
  | blockSeqStart
  | blockMapStart
  | blockEnd
  | flowSeqStart
  | flowSeqEnd
  | flowMapStart
  | flowMapEnd
  | blockEntry
  | flowEntry
  | key
  | value
  | anchor (name : String)
  | mention (name : String)
  | scalar (text : String) (plain : Bool)
deriving DecidableEq, Repr

/-- A place where a key may have started. -/
structure KeyPlace where
  /-- Without a colon the text is malformed: the place is in the column of a mapping's keys. -/
  required : Bool
  /-- How many tokens were read before it. -/
  before : Nat
  line : Nat
  column : Nat
  offset : Nat

/-- What the lexer knows about the text before the cursor. -/
structure Lexer where
  cursor : Cursor
  /-- The tokens read so far, the last one first. -/
  tokens : List Token
  /-- The column of the innermost block collection, none outside of all. -/
  indent : Option Nat
  /-- The columns around it. -/
  outer : List (Option Nat)
  /-- The possible key outside brackets, and in each bracket around the cursor, innermost first. -/
  keys : List (Option KeyPlace)
  /-- Whether a key may start at the cursor. -/
  keyAllowed : Bool

namespace Lexer

/-- The lexer before the first character. Outside of all brackets a key may start. -/
def start (text : List Char) : Lexer :=
  ⟨.start text, [], none, [], [none], true⟩

/-- Whether the cursor is between brackets, where columns mean nothing. -/
def inFlow (l : Lexer) : Bool :=
  1 < l.keys.length

/-- Adds a token behind those read so far. -/
def emit (l : Lexer) (t : Token) : Lexer :=
  { l with tokens := t :: l.tokens }

/-- Puts a token behind the first `before` ones. -/
def emitAfter (l : Lexer) (before : Nat) (t : Token) : Lexer :=
  let since := l.tokens.length - before
  { l with tokens := l.tokens.take since ++ t :: l.tokens.drop since }

/-- Moves the cursor on, with no token for what it passes. -/
def skip (l : Lexer) (n : Nat) : Lexer :=
  { l with cursor := l.cursor.skip n }

/-- Says whether a key may start where the cursor is now. -/
def allowKey (l : Lexer) (allowed : Bool) : Lexer :=
  { l with keyAllowed := allowed }

/-! ## Columns -/

/-- Whether the column lies to the right of the innermost block collection. -/
def isNewColumn (l : Lexer) (column : Nat) : Bool :=
  match l.indent with
  | none => true
  | some n => n < column

/-- Opens a block collection at a new column, behind the first `before` tokens. -/
def openColumn (l : Lexer) (column before : Nat) (t : Token) : Lexer :=
  if l.inFlow || !l.isNewColumn column then l
  else { l with indent := some column, outer := l.indent :: l.outer }.emitAfter before t

/-- Whether a collection at this column ends at the given one; nothing is left of all columns. -/
def endsAt (indent column : Option Nat) : Bool :=
  match indent, column with
  | none, _ => false
  | some _, none => true
  | some n, some c => c < n

/-- Closes the collections to the right of a column, or all of them. -/
def closeColumns (l : Lexer) (column : Option Nat) : Lexer :=
  if l.inFlow then l
  else close l.outer l
where
  close : List (Option Nat) → Lexer → Lexer
    | [], l => l
    | next :: outer, l =>
      if endsAt l.indent column then
        close outer ({ l with indent := next, outer := outer }.emit .blockEnd)
      else l

/-! ## Places of keys -/

/-- Gives up the innermost place, which must not be one that needs its colon. -/
def dropKey (l : Lexer) : Scan Lexer :=
  match l.keys with
  | some k :: rest => if k.required then refuse else .ok { l with keys := none :: rest }
  | _ => .ok l

/-- A key lies on one line and takes no more bytes than this. -/
def keyLimit : Nat := 1024

/-- Whether a key that started here can no longer be completed: the line has ended, or it grew too
long. -/
def isStale (c : Cursor) (k : KeyPlace) : Bool :=
  k.line < c.line || k.offset + keyLimit < c.offset

/-- Gives up the places that the cursor has left behind. -/
def dropStale (l : Lexer) : Scan Lexer := do
  let keys ← l.keys.mapM fun
    | none => .ok none
    | some k => if isStale l.cursor k then if k.required then refuse else .ok none else .ok (some k)
  return { l with keys := keys }

/-- Remembers the cursor as a place where a key may start. -/
def saveKey (l : Lexer) : Scan Lexer :=
  if !l.keyAllowed then .ok l
  else do
    let l ← l.dropKey
    let c := l.cursor
    let place : KeyPlace :=
      ⟨!l.inFlow && l.indent = some c.column, l.tokens.length, c.line, c.column, c.offset⟩
    return { l with keys := some place :: l.keys.tail }

/-! ## Single tokens -/

/-- Opens a bracket. -/
def openFlow (l : Lexer) (t : Token) : Scan Lexer := do
  let l ← l.saveKey
  return ({ l with keys := none :: l.keys }.allowKey true).skip 1 |>.emit t

/-- Closes a bracket; whether there is one to close is left to the reader of the tokens. -/
def closeFlow (l : Lexer) (t : Token) : Scan Lexer := do
  let l ← l.dropKey
  let keys := if l.inFlow then l.keys.tail else l.keys
  return ({ l with keys := keys }.allowKey false).skip 1 |>.emit t

/-- A comma between brackets. -/
def flowEntry (l : Lexer) : Scan Lexer := do
  let l ← l.dropKey
  return (l.allowKey true).skip 1 |>.emit .flowEntry

/-- A dash, which opens a sequence where its column is a new one. -/
def blockEntry (l : Lexer) : Scan Lexer := do
  if !l.inFlow && !l.keyAllowed then refuse
  let l := l.openColumn l.cursor.column l.tokens.length .blockSeqStart
  let l ← l.dropKey
  return (l.allowKey true).skip 1 |>.emit .blockEntry

/-- A key that is marked as one. -/
def explicitKey (l : Lexer) : Scan Lexer := do
  if !l.inFlow && !l.keyAllowed then refuse
  let l := l.openColumn l.cursor.column l.tokens.length .blockMapStart
  let l ← l.dropKey
  return (l.allowKey !l.inFlow).skip 1 |>.emit .key

/-- A colon: what started at the remembered place was a key. -/
def valueMark (l : Lexer) : Scan Lexer :=
  match l.keys with
  | some k :: rest =>
    let l := l.emitAfter k.before .key
    let l := l.openColumn k.column k.before .blockMapStart
    .ok (({ l with keys := none :: rest }.allowKey false).skip 1 |>.emit .value)
  | _ => do
    if !l.inFlow && !l.keyAllowed then refuse
    let l := l.openColumn l.cursor.column l.tokens.length .blockMapStart
    return (l.allowKey !l.inFlow).skip 1 |>.emit .value

/-- A character of the name of an anchor. -/
def isNameChar (c : Char) : Bool :=
  c.isAlphanum || c = '_' || c = '-'

/-- What may follow the name of an anchor. -/
def endsName : Option Char → Bool
  | some c => endsWord (some c) || "?:,]\x7d%@\x60".toList.contains c
  | none => true

/-- The name of an anchor, or of one that is referred to. -/
def anchorName (l : Lexer) (t : String → Token) : Scan Lexer := do
  let l ← l.saveKey
  let (name, c) := (l.cursor.skip 1).skipWhile isNameChar
  if name.isEmpty || !endsName c.peek then refuse
  return ({ l with cursor := c }.allowKey false).emit (t (String.ofList name))

/-- A scalar whose lines are told by their indentation. After it a key may start again. -/
def blockScalar (l : Lexer) (style : BlockStyle) : Scan Lexer := do
  let l ← l.dropKey
  let (text, c) ← readBlock style l.indent (l.cursor.skip 1)
  return ({ l with cursor := c }.allowKey true).emit (.scalar (String.ofList text) false)

/-- A scalar between quotes. A key may have started with it. -/
def quotedScalar (l : Lexer) (style : QuoteStyle) : Scan Lexer := do
  let l ← l.saveKey
  let c := l.cursor.skip 1
  let (text, c) ← readQuoted style (c.rest.length + 1) c
  return ({ l with cursor := c }.allowKey false).emit (.scalar (String.ofList text) false)

/-- After a plain scalar that ends with its line a key may start. -/
def plainScalar (l : Lexer) : Scan Lexer := do
  let l ← l.saveKey
  let least := match l.indent with
    | none => 0
    | some n => n + 1
  let (text, c, brk) ← readPlain l.inFlow least (l.cursor.rest.length + 1) .none [] l.cursor
  return ({ l with cursor := c }.allowKey brk).emit (.scalar (String.ofList text) true)

/-- A mark between documents ends all collections. -/
def documentMark (l : Lexer) (t : Token) : Scan Lexer := do
  let l := l.closeColumns none
  let l ← l.dropKey
  return (l.allowKey false).skip 3 |>.emit t

/-! ## Walking the text -/

/-- Passes over blanks, comments and breaks. A tab may not stand where a key may start. -/
def toNextToken (l : Lexer) : Nat → Lexer
  | 0 => l
  | fuel + 1 =>
    let tabs := l.inFlow || !l.keyAllowed
    let (_, c) := l.cursor.skipWhile fun ch => ch = ' ' || (tabs && ch = '\t')
    let c := if c.peek = some '#' then c.skipLine else c
    if c.peek.any isBreak then
      toNextToken { l with cursor := c.skipBreak.2, keyAllowed := l.keyAllowed || !l.inFlow } fuel
    else { l with cursor := c }

/-- Characters that a plain scalar cannot start with. -/
def isIndicator (c : Char) : Bool :=
  "-?:,[]\x7b\x7d#&*!|>'\"%@\x60".toList.contains c

/-- Whether a plain scalar starts at the cursor. -/
def startsPlain (l : Lexer) (ch : Char) : Bool :=
  let next := l.cursor.ahead 1
  (!isBlank ch && !isBreak ch && !isIndicator ch)
    || (ch = '-' && !next.any isBlank)
    || (!l.inFlow && (ch = '?' || ch = ':') && !endsWord next)

/-- Reads the token at the cursor. Directives and tags are not read. -/
def next (l : Lexer) (ch : Char) : Scan Lexer :=
  let after := l.cursor.ahead 1
  -- directives are refused
  if l.cursor.column = 0 && ch = '%' then refuse
  else if l.cursor.startsMark '-' then l.documentMark .documentStart
  else if l.cursor.startsMark '.' then l.documentMark .documentEnd
  else if ch = '[' then l.openFlow .flowSeqStart
  else if ch = '\x7b' then l.openFlow .flowMapStart
  else if ch = ']' then l.closeFlow .flowSeqEnd
  else if ch = '\x7d' then l.closeFlow .flowMapEnd
  else if ch = ',' then l.flowEntry
  else if ch = '-' && endsWord after then l.blockEntry
  else if ch = '?' && (l.inFlow || endsWord after) then l.explicitKey
  else if ch = ':' && (l.inFlow || endsWord after) then l.valueMark
  else if ch = '*' then l.anchorName .mention
  else if ch = '&' then l.anchorName .anchor
  -- no block starts between brackets
  else if ch = '|' && !l.inFlow then l.blockScalar .literal
  else if ch = '>' && !l.inFlow then l.blockScalar .folded
  else if ch = '\'' then l.quotedScalar .single
  else if ch = '"' then l.quotedScalar .double
  else if l.startsPlain ch then l.plainScalar
  else refuse

/-- The end of the text ends all collections. -/
def finish (l : Lexer) : Scan (List Token) := do
  let l := l.closeColumns none
  let l ← l.dropKey
  return l.tokens.reverse

/-- Reads tokens up to the end of the text. -/
def run : Nat → Lexer → Scan (List Token)
  | 0, _ => refuse
  | fuel + 1, l => do
    let l := l.toNextToken (l.cursor.rest.length + 1)
    let l ← l.dropStale
    let l := l.closeColumns (some l.cursor.column)
    match l.cursor.peek with
    | none => l.finish
    | some ch =>
      let l ← l.next ch
      run fuel l

end Lexer

/-- The tokens of a text. Every token takes at least one character. -/
def Token.ofText (text : String) : Scan (List Token) :=
  let chars := text.toList
  if chars.all isAllowed then Lexer.run (chars.length + 1) (.start chars) else refuse

end GraphQuery.Yaml
