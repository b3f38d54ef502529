/-!
# The shortest decimal of a floating-point number

A finite double stands for every real number that rounds to it. Of the decimals in that interval
the shortest is the one with the fewest digits, and of those the one nearest to the double itself.
All of it is exact arithmetic on natural numbers: a double is `mantissa · 2 ^ exponent`, and a
candidate is a point of the grid `10 ^ k`.
-/

namespace GraphQuery.Decimal

/-- The number `digits · 10 ^ exponent`. -/
structure Scaled where
  digits : Nat
  exponent : Int
deriving DecidableEq, Repr

/-- Which of two equally near decimals is taken. -/
inductive Tie
  | up
  | even
deriving DecidableEq, Repr

/-- A positive finite double as an exact product: the number is `mantissa · 2 ^ exponent`. -/
structure Binary where
  mantissa : Nat
  exponent : Int
  /-- Whether the gap below is half the gap above, as it is at a power of two. -/
  narrowBelow : Bool
deriving DecidableEq, Repr

/-- The first number that does not fit the fraction field of a double, which has 52 bits. -/
def fractionEnd : Nat :=
  0x10000000000000

/-- Takes the bits of a double apart: below the sign there are 11 bits of exponent, then the
fraction. -/
def Binary.ofBits (bits : Nat) : Binary :=
  let fraction : Nat := bits % fractionEnd
  let field : Nat := bits / fractionEnd % 0x800
  if field = 0 then ⟨fraction, -1074, false⟩
  else ⟨fractionEnd + fraction, Int.ofNat field - 1075, decide (fraction = 0 ∧ 1 < field)⟩

/-- A quotient of natural numbers. -/
structure Ratio where
  num : Nat
  den : Nat
deriving DecidableEq, Repr

/-- `n · 2 ^ e`. -/
def Ratio.ofBinary (n : Nat) (e : Int) : Ratio :=
  ⟨n * Nat.pow 2 e.toNat, Nat.pow 2 (-e).toNat⟩

/-- `n · 10 ^ e`. -/
def Ratio.ofDecimal (n : Nat) (e : Int) : Ratio :=
  ⟨n * Nat.pow 10 e.toNat, Nat.pow 10 (-e).toNat⟩

/-- Compares by cross-multiplication, which needs positive denominators. -/
def Ratio.lt (a b : Ratio) : Bool :=
  a.num * b.den < b.num * a.den

/-- The whole part of `a / b`. -/
def Ratio.floorDiv (a b : Ratio) : Nat :=
  a.num * b.den / (a.den * b.num)

/-- The reals that round to a double, in quarters of its last place. -/
structure Interval where
  low : Ratio
  centre : Ratio
  high : Ratio
  /-- The ends belong to it when the mantissa is even, since a tie rounds to even. -/
  closed : Bool
deriving DecidableEq, Repr

/-- Half a place to either side. At a power of two the doubles below are closer, so the lower end is
nearer by half. -/
def Binary.interval (b : Binary) : Interval :=
  let below := if b.narrowBelow then 1 else 2
  { low := .ofBinary (4 * b.mantissa - below) (b.exponent - 2)
    centre := .ofBinary (4 * b.mantissa) (b.exponent - 2)
    high := .ofBinary (4 * b.mantissa + 2) (b.exponent - 2)
    closed := b.mantissa % 2 == 0 }

/-- Whether a decimal reads back as the double of the interval. -/
def Interval.contains (i : Interval) (r : Ratio) : Bool :=
  if i.closed then !r.lt i.low && !i.high.lt r else i.low.lt r && r.lt i.high

/-- The number of decimal digits. -/
def digitCount (n : Nat) : Nat :=
  (Nat.toDigits 10 n).length

/-- An exponent whose power of ten is above the number by a factor of at most a hundred. -/
def Ratio.magnitude (r : Ratio) : Int :=
  if r.den ≤ r.num then digitCount (r.num / r.den)
  else 2 - (digitCount (r.den / r.num) : Int)

/-- The point of the grid `10 ^ k` nearest to the centre among those inside the interval. -/
def Interval.onGrid (i : Interval) (tie : Tie) (k : Int) : Option Nat :=
  let below := i.centre.floorDiv (.ofDecimal 1 k)
  let lower := Ratio.ofDecimal below k
  let upper := Ratio.ofDecimal (below + 1) k
  match decide (0 < below) && i.contains lower, i.contains upper with
  | false, false => none
  | true, false => some below
  | false, true => some (below + 1)
  | true, true =>
    -- twice the centre against the sum of both neighbours
    let twice : Ratio := ⟨2 * i.centre.num, i.centre.den⟩
    let middle := Ratio.ofDecimal (2 * below + 1) k
    if twice.lt middle then some below
    else if middle.lt twice then some (below + 1)
    else match tie with
      | .up => some (below + 1)
      | .even => some (if below % 2 = 0 then below else below + 1)

/-- The first grid with a point inside, from `k` downwards. -/
def Interval.firstGrid (i : Interval) (tie : Tie) : Nat → Int → Scaled
  | 0, k => ⟨i.centre.floorDiv (.ofDecimal 1 k), k⟩
  | fuel + 1, k =>
    match i.onGrid tie k with
    | some digits => ⟨digits, k⟩
    | none => i.firstGrid tie fuel (k - 1)

/-- Moves trailing zeros of the digits into the exponent. -/
def Scaled.trim : Nat → Scaled → Scaled
  | 0, s => s
  | fuel + 1, s =>
    if s.digits ≠ 0 ∧ s.digits % 10 = 0 then Scaled.trim fuel ⟨s.digits / 10, s.exponent + 1⟩ else s

/-- The shortest decimal that reads back as the double with these bits. Seventeen digits always do,
so no finer grid is tried. -/
def shortest (tie : Tie) (bits : Nat) : Scaled :=
  let i := (Binary.ofBits bits).interval
  let found := i.firstGrid tie 20 i.centre.magnitude
  Scaled.trim 20 found

end GraphQuery.Decimal
