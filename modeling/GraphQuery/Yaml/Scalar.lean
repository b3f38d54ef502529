import GraphQuery.Yaml.Cursor

/-!
# Reading scalars

A scalar is plain, quoted in one of two ways, or a block of lines. Where a plain or quoted scalar
runs over several lines, the gap between two words is folded: one break becomes a blank, and of
several breaks the first is dropped.
-/

namespace GraphQuery.Yaml

/-! ## Gaps between words -/

/-- Blanks and breaks between two words. Once a break has been met, blanks do not count. -/
structure Gap where
  blanks : List Char
  /-- The first break, none before it; an escaped break is there and empty. -/
  first : Option (List Char)
  more : List Char

namespace Gap

/-- Two words with nothing between them. -/
def none : Gap :=
  ⟨[], .none, []⟩

/-- The gap after an escaped break. -/
def escaped : Gap :=
  ⟨[], some [], []⟩

/-- Whether the words are on different lines. -/
def hasBreak (g : Gap) : Bool :=
  g.first.isSome

/-- What the gap puts between the words. -/
def fold (g : Gap) : List Char :=
  match g.first with
  | .none => g.blanks
  | some ['\n'] => if g.more.isEmpty then [' '] else g.more
  | some b => b ++ g.more

end Gap

/-- Reads a gap. A tab may not stand for indentation below `tabLimit`. -/
def readGap (tabLimit : Nat) : Nat → Gap → Cursor → Scan (Gap × Cursor)
  | 0, g, c => .ok (g, c)
  | fuel + 1, g, c =>
    match c.peek with
    | none => .ok (g, c)
    | some ch =>
      if isBlank ch then
        if g.hasBreak then
          if ch = '\t' ∧ c.column < tabLimit then refuse else readGap tabLimit fuel g (c.skip 1)
        else readGap tabLimit fuel { g with blanks := g.blanks ++ [ch] } (c.skip 1)
      else if isBreak ch then
        let (b, c) := c.skipBreak
        if g.hasBreak then readGap tabLimit fuel { g with more := g.more ++ b } c
        else readGap tabLimit fuel ⟨[], some b, []⟩ c
      else .ok (g, c)

/-! ## Plain scalars -/

/-- The marks of flow collections: commas and brackets. -/
def isFlowMark (ch : Char) : Bool :=
  ch = ',' || ch = '[' || ch = ']' || ch = '\x7b' || ch = '\x7d'

/-- Reads a word of a plain scalar. A colon ends it before a blank; inside brackets so do the marks
of flow collections, before which a colon is out of place. -/
def readWord (inFlow : Bool) : List Char → Scan (List Char)
  | [] => .ok []
  | ch :: rest =>
    let next := rest.head?
    if isBlank ch || isBreak ch then .ok []
    else if inFlow && ch = ':' && (next.any fun n => isFlowMark n || n = '?') then refuse
    else if (ch = ':' && endsWord next) || (inFlow && isFlowMark ch) then .ok []
    else (readWord inFlow rest).map (ch :: ·)

/-- Reads words and gaps. The last component tells whether the scalar is followed by a break. -/
def readPlain (inFlow : Bool) (indent : Nat) :
    Nat → Gap → List Char → Cursor → Scan (List Char × Cursor × Bool)
  | 0, _, _, _ => refuse
  | fuel + 1, gap, text, c =>
    if c.atDocumentMark ∨ c.peek = some '#' then .ok (text, c, gap.hasBreak)
    else do
      let word ← readWord inFlow c.rest
      if word.isEmpty then return (text, c, gap.hasBreak)
      let text := text ++ gap.fold ++ word
      let c := c.skip word.length
      let (gap, after) ← readGap indent (c.rest.length + 1) .none c
      if gap.blanks.isEmpty ∧ !gap.hasBreak then return (text, c, false)
      else if !inFlow ∧ after.column < indent then return (text, after, gap.hasBreak)
      else readPlain inFlow indent fuel gap text after

/-! ## Quoted scalars -/

/-- Which quotes stand around a scalar. Escapes count in double quotes only. -/
inductive QuoteStyle
  | single
  | double
deriving DecidableEq, Repr

/-- The character that opens and closes the scalar. -/
def QuoteStyle.mark : QuoteStyle → Char
  | single => '\''
  | double => '"'

/-- What a one-letter escape stands for. -/
def simpleEscape? (c : Char) : Option Char :=
  match c with
  | '0' => some '\x00'
  | 'a' => some '\x07'
  | 'b' => some '\x08'
  | 't' | '\t' => some '\t'
  | 'n' => some '\n'
  | 'v' => some '\x0b'
  | 'f' => some '\x0c'
  | 'r' => some '\r'
  | 'e' => some '\x1b'
  | ' ' => some ' '
  | '"' => some '"'
  | '/' => some '/'
  | '\\' => some '\\'
  | 'N' => some '\u0085'
  | '_' => some '\u00a0'
  | 'L' => some '\u2028'
  | 'P' => some '\u2029'
  | _ => none

/-- How many hexadecimal digits follow the letter of an escape. -/
def hexLength? (c : Char) : Option Nat :=
  match c with
  | 'x' => some 2
  | 'u' => some 4
  | 'U' => some 8
  | _ => none

/-- The value of one hexadecimal digit, small or capital. -/
def hexDigit? (c : Char) : Option Nat :=
  if c.isDigit then some (c.toNat - '0'.toNat)
  else if 'a' ≤ c ∧ c ≤ 'f' then some (c.toNat - 'a'.toNat + 10)
  else if 'A' ≤ c ∧ c ≤ 'F' then some (c.toNat - 'A'.toNat + 10)
  else none

/-- The number that hexadecimal digits write. -/
def hexNumber? (digits : List Char) : Option Nat :=
  digits.foldlM (fun n d => (hexDigit? d).map (n * 16 + ·)) 0

/-- The character with this number, which must not be half of a surrogate pair. -/
def charOf? (n : Nat) : Option Char :=
  if n.isValidChar then some (Char.ofNat n) else none

/-- One character between quotes: itself, or what an escape stands for. -/
inductive QuotedStep
  | char (value : Char) (after : Cursor)
  | escapedBreak (after : Cursor)
  /-- A blank, a break, the closing quote, or the end of the text. -/
  | stop

/-- An escape at a backslash. -/
def readEscape (c : Cursor) : Scan QuotedStep :=
  match c.ahead 1 with
  | none => refuse
  | some e =>
    if isBreak e then .ok (.escapedBreak (c.skip 1).skipBreak.2)
    else match simpleEscape? e, hexLength? e with
      | some s, _ => .ok (.char s (c.skip 2))
      | none, some n =>
        let digits := (c.rest.drop 2).take n
        match if digits.length = n then (hexNumber? digits).bind charOf? else none with
        | some s => .ok (.char s (c.skip (2 + n)))
        | none => refuse
      | none, none => refuse

/-- One character between quotes. A single quote is written by two of them. -/
def readQuotedStep (style : QuoteStyle) (c : Cursor) : Scan QuotedStep :=
  match c.peek with
  | none => .ok .stop
  | some ch =>
    if isBlank ch || isBreak ch then .ok .stop
    else match style with
      | .single =>
        if ch = '\'' then
          if c.ahead 1 = some '\'' then .ok (.char '\'' (c.skip 2)) else .ok .stop
        else .ok (.char ch (c.skip 1))
      | .double =>
        if ch = '"' then .ok .stop
        else if ch = '\\' then readEscape c
        else .ok (.char ch (c.skip 1))

/-- Reads characters up to a gap or the closing quote, and gives the start of the gap. -/
def readRun (style : QuoteStyle) : Nat → Cursor → Scan (List Char × Gap × Cursor)
  | 0, _ => refuse
  | fuel + 1, c => do
    match ← readQuotedStep style c with
    | .stop => return ([], .none, c)
    | .escapedBreak c => return ([], .escaped, c)
    | .char ch c =>
      let (run, gap, c) ← readRun style fuel c
      return (ch :: run, gap, c)

/-- Reads a quoted scalar after its opening quote. -/
def readQuoted (style : QuoteStyle) : Nat → Cursor → Scan (List Char × Cursor)
  | 0, _ => refuse
  | fuel + 1, c => do
    if c.atDocumentMark ∨ c.peek = none then refuse
    let (run, gap, c) ← readRun style (c.rest.length + 1) c
    if c.peek = some style.mark then return (run, c.skip 1)
    let (gap, c) ← readGap 0 (c.rest.length + 1) gap c
    let (text, c) ← readQuoted style fuel c
    return (run ++ gap.fold ++ text, c)

/-! ## Block scalars -/

/-- Whether a block keeps its breaks, or joins lines as a text in quotes does. -/
inductive BlockStyle
  | literal
  | folded
deriving DecidableEq, Repr

/-- What becomes of the breaks at the end of a block. -/
inductive Chomping
  | strip
  | clip
  | keep
deriving DecidableEq, Repr

/-- The indentation and the chomping of a block's first line, in either order. -/
def readHeader (c : Cursor) : Scan (Option Nat × Chomping × Cursor) := do
  let chomping (c : Cursor) : Option (Chomping × Cursor) :=
    match c.peek with
    | some '+' => some (.keep, c.skip 1)
    | some '-' => some (.strip, c.skip 1)
    | _ => none
  let indentation (c : Cursor) : Scan (Option Nat × Cursor) :=
    match c.peek with
    | some d =>
      if d = '0' then refuse
      else if d.isDigit then .ok (some (d.toNat - '0'.toNat), c.skip 1)
      else .ok (none, c)
    | none => .ok (none, c)
  -- the two marks may come in either order
  match chomping c with
  | some (how, c) =>
    let (indent, c) ← indentation c
    return (indent, how, c)
  | none =>
    let (indent, c) ← indentation c
    match indent with
    | none => return (none, .clip, c)
    | some n =>
      match chomping c with
      | some (how, c) => return (some n, how, c)
      | none => return (some n, .clip, c)

/-- Reads the indentation of empty lines and of the line after them. An indentation that is not
known yet is taken from the widest of these lines, but is at least `least`. -/
def readBreaks (indent : Option Nat) (least : Nat) :
    Nat → Nat → List Char → Cursor → Scan (Nat × List Char × Cursor)
  | 0, _, _, _ => refuse
  | fuel + 1, widest, breaks, c =>
    let inside (column : Nat) : Bool := match indent with
      | none => true
      | some n => column < n
    let wanted := match indent with
      | none => c.rest.length
      | some n => n - c.column
    -- only spaces indent, and no more of them than are asked for
    let run := (c.rest.take wanted).takeWhile (· = ' ')
    let c := c.skip run.length
    let widest := max widest c.column
    match c.peek with
    | none => .ok (indent.getD (max widest least), breaks, c)
    | some ch =>
      if ch = '\t' && inside c.column then refuse
      else if isBreak ch then
        let (b, c) := c.skipBreak
        readBreaks indent least fuel widest (breaks ++ b) c
      else .ok (indent.getD (max widest least), breaks, c)

/-- The lines of a block read so far. -/
structure Block where
  text : List Char
  /-- The break after the last line. -/
  lineEnd : List Char
  /-- The empty lines after it. -/
  breaks : List Char
  /-- Whether the last line started with a blank. -/
  blankLine : Bool

/-- The text before the next line. Folding joins two lines unless one of them starts with a
blank. -/
def Block.join (b : Block) (style : BlockStyle) (blankLine : Bool) : List Char :=
  if style = .folded ∧ b.lineEnd = ['\n'] ∧ !b.blankLine ∧ !blankLine then
    if b.breaks.isEmpty then b.text ++ [' '] else b.text ++ b.breaks
  else b.text ++ b.lineEnd ++ b.breaks

/-- Reads the lines that are indented as far as the block. -/
def readLines (style : BlockStyle) (indent : Nat) : Nat → Block → Cursor → Scan (Block × Cursor)
  | 0, _, _ => refuse
  | fuel + 1, b, c =>
    match c.peek with
    | none => .ok (b, c)
    | some ch =>
      if c.column ≠ indent then .ok (b, c)
      else do
        let blankLine := isBlank ch
        let (line, c) := c.skipWhile fun ch => !isBreak ch
        let (lineEnd, c) := c.skipBreak
        let text := b.join style blankLine ++ line
        let (_, breaks, c) ← readBreaks (some indent) 0 (c.rest.length + 1) 0 [] c
        readLines style indent fuel ⟨text, lineEnd, breaks, blankLine⟩ c

/-- Reads a block scalar after its mark, inside a collection of the given indentation. -/
def readBlock (style : BlockStyle) (outer : Option Nat) (c : Cursor) :
    Scan (List Char × Cursor) := do
  let (increment, chomping, c) ← readHeader c
  let (_, c) := c.skipWhile isBlank
  let c := if c.peek = some '#' then c.skipLine else c
  if !endsLine c.peek then refuse
  let (_, c) := c.skipBreak
  let least := match outer with
    | none => 1
    | some n => n + 1
  let fixed := increment.map fun n => outer.getD 0 + n
  let (indent, breaks, c) ← readBreaks fixed least (c.rest.length + 1) 0 [] c
  let (b, c) ← readLines style indent (c.rest.length + 1) ⟨[], [], breaks, false⟩ c
  match chomping with
  | .strip => return (b.text, c)
  | .clip => return (b.text ++ b.lineEnd, c)
  | .keep => return (b.text ++ b.lineEnd ++ b.breaks, c)

end GraphQuery.Yaml
