/-!
# Machine words and decimal numbers

A number that is read becomes an integer in a 64-bit word, with a sign or without, or else a double.

A decimal number has digits before or after a point, or both, and perhaps an exponent. Besides
numbers there are words for infinity and for the number that is none. The value is the double
nearest to what is written.
-/

/-! ## What a word holds -/

namespace GraphQuery.Word

/-- The first number that an unsigned word cannot hold. -/
def unsignedEnd : Nat :=
  0x10000000000000000

/-- The first number that a signed word cannot hold. -/
def signedEnd : Nat :=
  0x8000000000000000

/-- Whether an unsigned word holds the number. -/
def fitsUnsigned (n : Nat) : Bool :=
  n < unsignedEnd

/-- Whether a signed word holds the integer; it has one more place below zero than above. -/
def fitsSigned (n : Int) : Bool :=
  -(signedEnd : Int) ≤ n && n < signedEnd

/-- Whether one of the two words holds the integer. -/
def fits (n : Int) : Bool :=
  -(signedEnd : Int) ≤ n && n < unsignedEnd

end GraphQuery.Word

/-! ## Reading a decimal number -/

namespace GraphQuery.Decimal

/-- Sign and rest of a text. -/
def splitSign : List Char → Bool × List Char
  | '-' :: rest => (true, rest)
  | '+' :: rest => (false, rest)
  | text => (false, text)

/-- The number that decimal digits stand for, read from the left. -/
def digitsValue (digits : List Char) : Nat :=
  digits.foldl (fun n d => n * 10 + (d.toNat - '0'.toNat)) 0

/-- The double nearest to `digits · 10 ^ exponent`. Far outside the range of the doubles the answer
is known without working it out. -/
def nearest (digits : List Char) (exponent : Int) : Float :=
  let significant := digits.dropWhile (· = '0')
  let magnitude := exponent + significant.length
  if significant.isEmpty ∨ magnitude < -400 then 0
  else if 400 < magnitude then Float.ofBits 0x7FF0000000000000
  else Float.ofScientific (digitsValue significant) (decide (exponent < 0)) exponent.natAbs

/-- The exponent at the end of a number: none is zero, and a sign without digits is a fault. -/
def readExponent? : List Char → Option Int
  | [] => some 0
  | c :: rest =>
    if c = 'e' ∨ c = 'E' then
      let (negative, digits) := splitSign rest
      if digits.isEmpty ∨ !digits.all Char.isDigit then none
      else
        let value : Int := digitsValue digits
        some (if negative then -value else value)
    else none

/-- A number without its sign. -/
def readUnsigned? (text : List Char) : Option Float :=
  let whole := text.takeWhile Char.isDigit
  let rest := text.dropWhile Char.isDigit
  let (fraction, rest) := match rest with
    | '.' :: after => (after.takeWhile Char.isDigit, after.dropWhile Char.isDigit)
    | _ => ([], rest)
  if whole.isEmpty ∧ fraction.isEmpty then none
  else do
    let exponent ← readExponent? rest
    return nearest (whole ++ fraction) (exponent - fraction.length)

/-- The words for values that no digits write. -/
def readWord? (text : List Char) : Option Float :=
  let word := String.ofList (text.map Char.toLower)
  if word = "inf" ∨ word = "infinity" then some (Float.ofBits 0x7FF0000000000000)
  else if word = "nan" then some (Float.ofBits 0x7FF8000000000000)
  else none

/-- Reads a whole text as a double. -/
def read? (text : String) : Option Float := do
  let (negative, rest) := splitSign text.toList
  let x ← (readWord? rest).or (readUnsigned? rest)
  return if negative then -x else x

end GraphQuery.Decimal
