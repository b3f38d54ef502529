import GraphQuery.Decimal.Shortest
import GraphQuery.Decimal.Reader

/-!
# How a decimal is laid out

Two texts of the library hold floating-point numbers: the query and its JSON companion. Both write
the shortest decimal, and differ in a few decisions, collected in one record each.
-/

namespace GraphQuery.Decimal

/-- The decisions of one number format. -/
structure Layout where
  /-- The smallest power of ten that is written without an exponent. -/
  plainFrom : Int
  /-- The first power of ten that needs an exponent again. -/
  plainBelow : Int
  /-- What stands before an exponent that is not negative. -/
  positiveSign : String
  tie : Tie

/-- In query text the numbers from `1e-4` up to `1e16` are positional, and no exponent bears a
plus. -/
def Layout.query : Layout := ⟨-4, 16, "", .up⟩

/-- In JSON text `1e-5` is still positional, and a positive exponent bears a plus. -/
def Layout.json : Layout := ⟨-5, 16, "+", .even⟩

/-- So many zeros, to fill the places between the digits and the point. -/
def zeros (n : Nat) : String :=
  String.ofList (List.replicate n '0')

/-- Positional text: a point always stands between two digits. -/
def positional (digits : List Char) (point : Int) : String :=
  if point ≤ 0 then "0." ++ zeros (-point).toNat ++ String.ofList digits
  else if (digits.length : Int) ≤ point then
    String.ofList digits ++ zeros (point.toNat - digits.length) ++ ".0"
  else String.ofList (digits.take point.toNat) ++ "." ++ String.ofList (digits.drop point.toNat)

/-- Exponent text: one digit, the others after a point if there are any, and the power of ten. -/
def exponential (layout : Layout) (digits : List Char) (power : Int) : String :=
  let mantissa := match digits with
    | [] => "0"
    | d :: [] => String.singleton d
    | d :: rest => String.singleton d ++ "." ++ String.ofList rest
  let mark := if power < 0 then "-" else layout.positiveSign
  mantissa ++ "e" ++ mark ++ toString power.natAbs

/-- The text of a positive decimal. -/
def Scaled.text (layout : Layout) (s : Scaled) : String :=
  let digits := Nat.toDigits 10 s.digits
  let point := s.exponent + digits.length
  if layout.plainFrom ≤ point - 1 ∧ point - 1 < layout.plainBelow then positional digits point
  else exponential layout digits (point - 1)

/-- The text of a finite double. A zero keeps its sign. -/
def text (layout : Layout) (x : Float) : String :=
  let bits := x.toBits.toNat
  let sign := if bits / Word.signedEnd = 1 then "-" else ""
  let magnitude := bits % Word.signedEnd
  sign ++ if magnitude = 0 then "0.0" else (shortest layout.tie magnitude).text layout

end GraphQuery.Decimal
