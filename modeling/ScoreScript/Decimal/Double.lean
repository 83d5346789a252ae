import ScoreScript.Decimal.Digits

/-!
Doubles as exact numbers. A positive finite double is `mantissa · 2 ^ exponent`, and an exact
quotient of naturals is rounded to the nearest double, a tie going to the even mantissa.
-/

namespace ScoreScript

/-- The mantissa and exponent of a positive finite double, given by its bits. -/
structure Double where
  mantissa : Nat
  exponent : Int
  /-- Whether the next double below is only half as far away as the next above. -/
  narrowBelow : Bool
  deriving DecidableEq, Repr

namespace Double

def mantissaOf (bits : Nat) : Nat :=
  bits % twoTo 52

def exponentOf (bits : Nat) : Nat :=
  bits / twoTo 52 % twoTo 11

def isNegative (x : Float) : Bool :=
  twoTo 63 ≤ x.toBits.toNat

/-- The size of a finite double, its sign left out. -/
def ofBits (bits : Nat) : Double :=
  let low := mantissaOf bits
  let high := exponentOf bits
  if high = 0 then ⟨low, -1074, false⟩
  else ⟨twoTo 52 + low, (high : Int) - 1075, low == 0 && 1 < high⟩

/-- The quotient with the given power of two taken out of it. -/
def scaled (num den : Nat) (power : Int) : Nat × Nat :=
  match power with
  | .ofNat n => (num, den * twoTo n)
  | .negSucc n => (num * twoTo (n + 1), den)

/-- The nearest natural to a quotient, a tie going to the even one. -/
def roundEven (num den : Nat) : Nat :=
  let below := num / den
  let rest := num % den
  if den < 2 * rest || (2 * rest == den && below % 2 == 1) then below + 1 else below

/-- The power of two at which a positive quotient has a mantissa of 53 bits, or the least power
that doubles have. -/
def powerFor (num den : Nat) : Int :=
  let guess : Int := (num.log2 : Int) - den.log2 - 52
  let (n, d) := scaled num den guess
  let power := if n / d < twoTo 52 then guess - 1 else guess
  max power (-1074)

/-- The bits of the double nearest to a quotient; too large a quotient gives infinity. -/
def nearestBits (num den : Nat) : Nat :=
  if num = 0 then 0
  else
    let power := powerFor num den
    let (n, d) := scaled num den power
    let mantissa := roundEven n d
    let bits := if mantissa < twoTo 52 then mantissa
      else (power + 1075).toNat * twoTo 52 + (mantissa - twoTo 52)
    min bits (2047 * twoTo 52)

end Double

/-!
The shortest decimal of a double: the fewest digits that read back as the same double, and of
those the nearest to it, a tie going up. The search tries one digit, then two, and so on; on
each decimal grid only the two neighbours of the double can be such a decimal.
-/

/-- The number `coefficient · 10 ^ exponent`. -/
structure Decimal where
  coefficient : Nat
  exponent : Int
  deriving DecidableEq, Repr

namespace Decimal

/-- The decimal digits of a natural number. -/
def digits (n : Nat) : List Char :=
  Nat.toDigits 10 n

/-- The interval of numbers that round to a double, in quarters of its unit, and the double
itself in the same measure. -/
structure Interval where
  low : Nat
  middle : Nat
  high : Nat
  /-- Whether the two ends belong to it. -/
  closed : Bool

def interval (x : Double) : Interval :=
  { low := 4 * x.mantissa - (if x.narrowBelow then 1 else 2)
    middle := 4 * x.mantissa
    high := 4 * x.mantissa + 2
    closed := x.mantissa % 2 == 0 }

/-- The quotient `2 ^ twos / 10 ^ tens`. -/
def ratio (twos tens : Int) : Nat × Nat :=
  (twoTo twos.toNat * tenTo (-tens).toNat, twoTo (-twos).toNat * tenTo tens.toNat)

/-- The neighbour of a double on the grid of multiples of `10 ^ tens` that rounds to it; of
two, the nearer one. -/
def onGrid (x : Double) (tens : Int) : Option Nat :=
  let i := interval x
  let (num, den) := ratio (x.exponent - 2) tens
  let inside (c : Nat) : Bool :=
    if i.closed then i.low * num ≤ c * den && c * den ≤ i.high * num
    else i.low * num < c * den && c * den < i.high * num
  let below := i.middle * num / den
  let above := below + 1
  let aboveIsNearer := above * den - i.middle * num ≤ i.middle * num - below * den
  match inside below, inside above with
  | true, true => some (if aboveIsNearer then above else below)
  | true, false => some below
  | false, true => some above
  | false, false => none

/-- The exponent `k` with `10 ^ (k - 1) ≤ x < 10 ^ k`. -/
def magnitude (x : Double) : Int :=
  let (num, den) := ratio x.exponent 0
  let num := x.mantissa * num
  let guess : Int := ((digits num).length : Int) - (digits den).length
  let (n, d) := (num * tenTo (-guess).toNat, den * tenTo guess.toNat)
  if d ≤ n then guess + 1 else guess

/-- A decimal without zeros at the end of its coefficient. -/
def stripZeros (fuel : Nat) (d : Decimal) : Decimal :=
  match fuel with
  | 0 => d
  | fuel + 1 =>
    if d.coefficient % 10 = 0 then stripZeros fuel ⟨d.coefficient / 10, d.exponent + 1⟩ else d

/-- Try `count` digits, then more, as far as seventeen. -/
def search (x : Double) (top : Int) : List Nat → Decimal
  | [] => ⟨0, 0⟩
  | count :: more =>
    match onGrid x (top - count) with
    | some c => stripZeros 20 ⟨c, top - count⟩
    | none => search x top more

/-- The shortest decimal of a positive finite double. -/
def shortest (x : Double) : Decimal :=
  search x (magnitude x) [1, 2, 3, 4, 5, 6, 7, 8, 9, 10, 11, 12, 13, 14, 15, 16, 17]

/-- The shortest decimal of a finite double, its sign left out. -/
def ofFloat (x : Float) : Decimal :=
  let bits := x.toBits.toNat % twoTo 63
  if bits = 0 then ⟨0, 0⟩ else shortest (.ofBits bits)

/-- Digits with the point where it belongs and no exponent. -/
def positional (d : Decimal) : List Char :=
  let ds := digits d.coefficient
  match d.exponent with
  | .ofNat n => ds ++ List.replicate n '0'
  | .negSucc n =>
    let places := n + 1
    if places < ds.length then
      ds.take (ds.length - places) ++ '.' :: ds.drop (ds.length - places)
    else '0' :: '.' :: List.replicate (places - ds.length) '0' ++ ds

/-- The exponent of the first digit. -/
def leading (d : Decimal) : Int :=
  d.exponent + (digits d.coefficient).length - 1

/-- The first digit, then the others after a point. -/
def significand (d : Decimal) : List Char :=
  match digits d.coefficient with
  | [] => []
  | [c] => [c]
  | c :: cs => c :: '.' :: cs

end Decimal

end ScoreScript
