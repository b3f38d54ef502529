import GraphQuery.Json.Number
import GraphQuery.Json.Printer
import GraphQuery.Text.Printable

/-!
# Why a value could not be read

Either the text breaks off, or the value is not what was asked for. A mismatch says what was found
and what was wanted in its place.
-/

namespace GraphQuery

/-- What stands where something else was wanted. -/
inductive Found
  | null
  | bool (value : Bool)
  | int (value : Int)
  | float (value : Float)
  | str (value : String)
  | seq
  | map
  /-- The bare name of an alternative. -/
  | bareName

/-- How a value differs from what was asked for. -/
inductive Mismatch
  | type (found : Found) (wanted : String)
  | value (found : Found) (wanted : String)
  | length (length : Nat) (wanted : String)
  | unknownName (name : String) (known : List String)
  | missing (field : String)
  | duplicate (field : String)

/-- Why reading gave nothing. -/
inductive Unread
  | mismatch (why : Mismatch)
  | broken (why : Json.Break)

/-- What was found, in the words of a message. Texts are quoted and numbers written out. -/
def Found.text : Found → String
  | null => "null"
  | bool b => "boolean \x60" ++ (if b then "true" else "false") ++ "\x60"
  | int n => "integer \x60" ++ toString n ++ "\x60"
  | float x => "floating point \x60" ++ Json.floatText x ++ "\x60"
  | str s => "string " ++ Text.quoted s
  | seq => "sequence"
  | map => "map"
  | bareName => "unit variant"

/-- The names that would have been right. -/
def knownText : List String → String
  | [] => "there are no variants"
  | [a] => "expected \x60" ++ a ++ "\x60"
  | [a, b] => "expected \x60" ++ a ++ "\x60 or \x60" ++ b ++ "\x60"
  | names => "expected one of " ++ ", ".intercalate (names.map fun n => "\x60" ++ n ++ "\x60")

/-- What was found and what was wanted, in the words of a message. -/
def Mismatch.message : Mismatch → String
  | type found wanted => "invalid type: " ++ found.text ++ ", expected " ++ wanted
  | value found wanted => "invalid value: " ++ found.text ++ ", expected " ++ wanted
  | length n wanted => "invalid length " ++ toString n ++ ", expected " ++ wanted
  | unknownName name known => "unknown variant \x60" ++ name ++ "\x60, " ++ knownText known
  | missing field => "missing field \x60" ++ field ++ "\x60"
  | duplicate field => "duplicate field \x60" ++ field ++ "\x60"

/-- What a message says about it. A text that breaks off is reported without further words. -/
def Unread.message : Unread → String
  | mismatch why => why.message
  | broken why => if why.endsEarly then "unexpected end of text" else "malformed text"

/-- Reading a value of some type. -/
abbrev Read := Except Unread

namespace Read

universe u

variable {α : Type u}

/-- The value is of another type than the one wanted. -/
def wrongType (found : Found) (wanted : String) : Read α :=
  .error (.mismatch (.type found wanted))

/-- The text itself breaks off. -/
def broken (why : Json.Break) : Read α :=
  .error (.broken why)

/-- The text is no text of its notation. -/
def malformed : Read α :=
  broken .malformed

end Read

end GraphQuery
