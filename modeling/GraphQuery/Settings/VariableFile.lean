import GraphQuery.Settings.Assignment

/-!
# A file of variables

A line of the file may go on over several lines of text: as long as a quote is open or an escape is
waiting for its character, a break does not end it. A line that cannot be read ends the file, and so
does one that the text ends inside of. Variables that are set already, by the environment or by an
earlier line, keep their values.
-/

namespace GraphQuery.Settings.VariableFile

open Text (isBlank dropBlanks)

/-! ## Lines -/

/-- Where in a line the text stands. -/
inductive Seam
  /-- Where a break ends the line. -/
  | plain
  /-- After one blank, where a comment may start. -/
  | blank
  | escape
  | single
  | singleEscape
  | double
  | doubleEscape
deriving DecidableEq, Repr

namespace Seam

/-- What a character outside quotes leads to. -/
def opened (c : Char) : Seam :=
  if c = '\\' then escape
  else if c = '"' then double
  else if c = '\'' then single
  else plain

/-- The place after one more character, none if it starts a comment. -/
def next? (seam : Seam) (c : Char) : Option Seam :=
  match seam with
  | plain => some (if isBlank c ∧ c ≠ '\n' ∧ c ≠ '\r' then blank else opened c)
  | blank => if c = '#' then none else some (opened c)
  | escape => some plain
  | single => some (if c = '\\' then singleEscape else if c = '\'' then plain else single)
  | singleEscape => some single
  | double => some (if c = '\\' then doubleEscape else if c = '"' then plain else double)
  | doubleEscape => some double

end Seam

/-- The text up to a comment, and the place after it if there is no comment. -/
def scan (seam : Seam) : List Char → List Char × Option Seam
  | [] => ([], some seam)
  | c :: rest =>
    match seam.next? c with
    | none => ([], none)
    | some seam =>
      let (text, after) := scan seam rest
      (c :: text, after)

/-- A line of text without its break. -/
def dropBreak (line : List Char) : List Char :=
  match line.reverse with
  | '\n' :: '\r' :: rest | '\n' :: rest => rest.reverse
  | _ => line

/-- Whether the first character that is no blank starts a comment. -/
def isComment (text : List Char) : Bool :=
  (dropBlanks text).head? = some '#'

/-- Gathers the lines of the file from lines of text; `held` is the start of a line that goes on.
What the text ends inside of is left out, since nothing comes after it. -/
def gather (held : List Char) (seam : Seam) : List (List Char) → List (List Char)
  | [] => []
  | line :: rest =>
    let text := held ++ line
    if isComment text then gather [] .plain rest
    else match scan seam line with
      | (before, none) => (held ++ before) :: gather [] .plain rest
      | (_, some .plain) => dropBreak text :: gather [] .plain rest
      | (_, some seam) => gather text seam rest

/-- Splits bytes into lines, each with its break. -/
def splitLines : List UInt8 → List (List UInt8)
  | [] => []
  | b :: rest =>
    if b = 0x0A then [b] :: splitLines rest
    else match splitLines rest with
      | [] => [[b]]
      | line :: others => (b :: line) :: others

/-- The lines of text up to the first that is not text. -/
def textLines : List (List UInt8) → List (List Char)
  | [] => []
  | line :: rest =>
    match String.fromUTF8? (ByteArray.mk line.toArray) with
    | some text => text.toList :: textLines rest
    | none => []

/-- The text without the mark of its byte order. -/
def dropMark (bytes : List UInt8) : List UInt8 :=
  match bytes with
  | 0xEF :: 0xBB :: 0xBF :: rest => rest
  | _ => bytes

/-- The assignments of a file. -/
def read (bytes : ByteArray) : List Assignment :=
  Assignment.ofLines (gather [] .plain (textLines (splitLines (dropMark bytes.toList))))

/-! ## Values -/

/-- The variables that values mention. -/
def mentions (assignments : List Assignment) : List String :=
  assignments.flatMap fun a => a.value.filterMap fun
    | .char _ => none
    | .mention name => some name

/-- The value of a variable, from the environment if it is set there, and else from the first line
that sets it. -/
def value? (environment : String → Option String) (set : List (String × String))
    (name : String) : Option String :=
  (environment name).or ((set.find? fun entry => entry.1 = name).map Prod.snd)

/-- A value with the values of other variables in place. One that is not set leaves nothing. -/
def expand (value? : String → Option String) (pieces : List Piece) : String :=
  String.join (pieces.map fun
    | .char c => String.singleton c
    | .mention name => (value? name).getD "")

/-- The variables of a file with their values. A value may mention variables of earlier lines. -/
def assign (environment : String → Option String) (set : List (String × String)) :
    List Assignment → List (String × String)
  | [] => set
  | a :: rest =>
    assign environment (set ++ [(a.name, expand (value? environment set) a.value)]) rest

end GraphQuery.Settings.VariableFile
