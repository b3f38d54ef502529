/-!
# Names in query text

A name that comes from outside (a label, a relationship type, a property key, an output name) may
hold any characters. A label is always quoted; every other name is quoted unless it is plain.
Inside the quotes a quote is written twice, so the quoted form has one reading only.
-/

namespace GraphQuery.Name

/-- The mark on both sides of a quoted name. -/
def quote : Char := '\x60'

/-- Letters of ASCII and the underscore may start a plain name. -/
def isStart (c : Char) : Bool :=
  c.isAlpha || c == '_'

/-- After the first character digits are allowed too. -/
def isPart (c : Char) : Bool :=
  c.isAlphanum || c == '_'

/-- Whether these characters read as one word of the query text. -/
def plainChars : List Char → Bool
  | [] => false
  | c :: rest => isStart c && rest.all isPart

/-- Whether a name can stand in the text without quotes. -/
def isPlain (name : String) : Bool :=
  plainChars name.toList

/-- Each quote is doubled and all else is kept. -/
def doubled : List Char → List Char
  | [] => []
  | c :: rest => if c = quote then quote :: quote :: doubled rest else c :: doubled rest

/-- A name between quotes. -/
def quoted (name : String) : String :=
  String.ofList (quote :: (doubled name.toList ++ [quote]))

/-- A name as it is written where quotes are optional. -/
def written (name : String) : String :=
  if isPlain name then name else quoted name

/-- The labels of a node, each after a colon and always quoted. -/
def labels (names : List String) : String :=
  String.join (names.map fun name => ":" ++ quoted name)

/-! ## Reading a name back -/

/-- Reads up to the closing quote; a doubled quote stands for one. -/
def unquoteRest : List Char → Option (List Char × List Char)
  | [] => none
  | c :: rest =>
    if c = quote then
      match rest with
      | [] => some ([], [])
      | d :: rest' =>
        if d = quote then (unquoteRest rest').map fun (name, after) => (quote :: name, after)
        else some ([], d :: rest')
    else (unquoteRest rest).map fun (name, after) => (c :: name, after)

/-- Reads one quoted name and gives what follows it. -/
def unquote? : List Char → Option (List Char × List Char)
  | [] => none
  | c :: rest => if c = quote then unquoteRest rest else none

/-- Reads one name, quoted or bare, and gives what follows it. -/
def read? (text : List Char) : Option (List Char × List Char) :=
  match text with
  | [] => none
  | c :: _ =>
    if c = quote then unquote? text
    else if isPart c then some (text.takeWhile isPart, text.dropWhile isPart)
    else none

theorem doubled_cons_quote (rest : List Char) :
    doubled (quote :: rest) = quote :: quote :: doubled rest := by
  simp [doubled]

theorem doubled_cons_of_ne {c : Char} (h : c ≠ quote) (rest : List Char) :
    doubled (c :: rest) = c :: doubled rest := by
  simp [doubled, h]

theorem toList_quoted (name : String) :
    (quoted name).toList = quote :: (doubled name.toList ++ [quote]) := by
  simp [quoted]

end GraphQuery.Name
