import GraphQuery.Decimal.Reader

/-!
# Reading numbers

An integer within the 64-bit ranges is read exactly. Any other number becomes a double by way of a
64-bit significand and a power of ten: digits are gathered as long as they fit, and one
multiplication or division by a power of ten follows. A number beyond the doubles is refused.
-/

namespace GraphQuery.Json

/-- Why a text is not a value: it has a character out of place, or it ends too early. -/
inductive Break
  | malformed
  | cutShort
  /-- The text ends inside a number, where one more digit is needed. -/
  | cutInNumber
deriving DecidableEq, Repr

namespace Break

/-- Whether more text could have mended the break. -/
def endsEarly : Break → Bool
  | malformed => false
  | cutShort | cutInNumber => true

/-- What the break counts as in a value that nobody asks for. There a number is only matched
against its grammar, and one that lacks a digit does not match, wherever the text ends. -/
def ignored : Break → Break
  | cutInNumber => malformed
  | why => why

end Break

/-- What a number's text stands for. -/
inductive Numeral
  | int (value : Int)
  | float (value : Float)
  /-- Well formed, and too large for a double. -/
  | outOfRange
  | broken (why : Break)

/-- Digits gathered so far: the number is `significand · 10 ^ exponent`. -/
structure Gathered where
  significand : Nat
  exponent : Int
deriving DecidableEq, Repr

/-- The value of one decimal digit. -/
def digitValue (c : Char) : Nat :=
  c.toNat - '0'.toNat

/-- The significand with one more digit, if it still fits 64 bits. -/
def Gathered.push? (g : Gathered) (d : Char) : Option Nat :=
  let next := g.significand * 10 + digitValue d
  if Word.fitsUnsigned next then some next else none

/-- Digits of the whole part that do not fit only raise the exponent. -/
def Gathered.whole (g : Gathered) : List Char → Gathered
  | [] => g
  | d :: rest =>
    match g.push? d with
    | some next => Gathered.whole ⟨next, g.exponent⟩ rest
    | none => ⟨g.significand, g.exponent + (rest.length + 1)⟩

/-- Digits of the fraction that do not fit are dropped. -/
def Gathered.fraction (g : Gathered) : List Char → Gathered
  | [] => g
  | d :: rest =>
    match g.push? d with
    | some next => Gathered.fraction ⟨next, g.exponent - 1⟩ rest
    | none => g

/-- `10 ^ n` as a double. -/
def powerOfTen (n : Nat) : Float :=
  Float.ofScientific 1 false n

/-- The double `x · 10 ^ exponent`, or none if it is too large. An exponent below the range of the
powers of ten is used up in steps. -/
def scale? : Nat → Float → Int → Option Float
  | steps, x, exponent =>
    if exponent.natAbs ≤ 308 then
      if 0 ≤ exponent then
        let scaled := x * powerOfTen exponent.toNat
        if scaled.isInf then none else some scaled
      else some (x / powerOfTen exponent.natAbs)
    else if x == 0 then some x
    else if 0 ≤ exponent then none
    else
      match steps with
      | 0 => some 0
      | steps + 1 => scale? steps (x / powerOfTen 308) (exponent + 308)

/-- Three steps take every 64-bit significand to zero. -/
def Gathered.toNumeral (negative : Bool) (g : Gathered) : Numeral :=
  match scale? 4 (Float.ofNat g.significand) g.exponent with
  | none => .outOfRange
  | some x => .float (if negative then -x else x)

/-- A whole number that was gathered without loss. The integer minus zero is a double, since no
integer keeps that sign. -/
def Gathered.toInteger (negative : Bool) (g : Gathered) : Numeral :=
  if g.exponent ≠ 0 then g.toNumeral negative
  else if !negative then .int g.significand
  else if g.significand = 0 ∨ Word.signedEnd < g.significand then
    .float (-(Float.ofNat g.significand))
  else .int (-(g.significand : Int))

/-- The number that decimal digits stand for, of any size. -/
def natOfDigits (digits : List Char) : Nat :=
  digits.foldl (fun n d => n * 10 + digitValue d) 0

/-- A digit has to follow here. -/
def digitMissing (rest : List Char) : Break :=
  if rest.isEmpty then .cutInNumber else .malformed

/-- The exponent part, if there is one. -/
def readExponent (negative : Bool) (g : Gathered) (text : List Char) (plain : Numeral) :
    Numeral × List Char :=
  match text with
  | c :: rest =>
    if c = 'e' ∨ c = 'E' then
      let (down, rest) := match rest with
        | '+' :: rest' => (false, rest')
        | '-' :: rest' => (true, rest')
        | _ => (false, rest)
      let digits := rest.takeWhile Char.isDigit
      let rest := rest.dropWhile Char.isDigit
      if digits.isEmpty then (.broken (digitMissing rest), rest)
      else
        let power : Int := natOfDigits digits
        let exponent := if down then g.exponent - power else g.exponent + power
        (Gathered.toNumeral negative ⟨g.significand, exponent⟩, rest)
    else (plain, text)
  | [] => (plain, text)

/-- The number after its sign. A leading zero stands alone. -/
def readUnsigned (negative : Bool) (text : List Char) : Numeral × List Char :=
  let digits := text.takeWhile Char.isDigit
  let rest := text.dropWhile Char.isDigit
  match digits with
  | [] => (.broken (digitMissing rest), rest)
  | '0' :: _ :: _ => (.broken .malformed, rest)
  | _ =>
    let g := Gathered.whole ⟨0, 0⟩ digits
    match rest with
    | '.' :: rest' =>
      let decimals := rest'.takeWhile Char.isDigit
      let after := rest'.dropWhile Char.isDigit
      if decimals.isEmpty then (.broken (digitMissing after), after)
      else
        let g := g.fraction decimals
        readExponent negative g after (g.toNumeral negative)
    | _ => readExponent negative g rest (g.toInteger negative)

/-- Reads the longest number at the start of a text. -/
def readNumber (text : List Char) : Numeral × List Char :=
  match text with
  | '-' :: rest => readUnsigned true rest
  | _ => readUnsigned false text

end GraphQuery.Json
