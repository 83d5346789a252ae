import ScoreScript.Decimal.Double

/-!
Doubles and integers as text. Messages show a double without exponent and without needless
fraction. A number is read from its sign, digits, point and exponent, and rounded correctly.
-/

namespace ScoreScript

namespace Decimal

def withSign (x : Float) (text : List Char) : String :=
  String.ofList (if Double.isNegative x then '-' :: text else text)

/-- A double in a message: `4`, `0.25`, `-0`, `inf`, `NaN`. -/
def plainText (x : Float) : String :=
  if x.isNaN then "NaN"
  else if x.isInf then withSign x "inf".toList
  else withSign x (ofFloat x).positional

/-- The number of a digit, put after those of value `before`. -/
def appendDigit (before : Nat) (d : Char) : Nat :=
  before * 10 + (d.toNat - '0'.toNat)

/-- The value of a run of decimal digits. A long run is read in halves, so that few of the
products are of large numbers. -/
def valueOf (ds : List Char) : Nat :=
  if ds.length ≤ 32 then ds.foldl appendDigit 0
  else
    let count := ds.length / 2
    valueOf (ds.take (ds.length - count)) * tenTo count + valueOf (ds.drop (ds.length - count))
termination_by ds.length
decreasing_by
  · rw [List.length_take]
    omega
  · rw [List.length_drop]
    omega

theorem foldl_appendDigit (before : Nat) (ds : List Char) :
    ds.foldl appendDigit before = before * tenTo ds.length + ds.foldl appendDigit 0 := by
  induction ds generalizing before with
  | nil => simp only [List.length_nil, tenTo_zero, Nat.mul_one, List.foldl_nil, Nat.add_zero]
  | cons d ds ih =>
    rw [List.foldl_cons, List.foldl_cons, ih, ih (appendDigit 0 d), List.length_cons]
    simp only [appendDigit, tenTo_succ]
    rw [Nat.mul_comm (tenTo ds.length) 10, ← Nat.mul_assoc]
    simp only [Nat.add_mul, Nat.zero_mul, Nat.zero_add, Nat.add_assoc]

theorem valueOf_eq_foldl (ds : List Char) : valueOf ds = ds.foldl appendDigit 0 := by
  fun_induction valueOf ds with
  | case1 => rfl
  | case2 ds _ count front back =>
    have split := List.take_append_drop (ds.length - count) ds
    have length : (ds.drop (ds.length - count)).length = count := by
      rw [List.length_drop]
      omega
    rw [front, back]
    conv => rhs; rw [← split, List.foldl_append, foldl_appendDigit, length]

/-- The digits of a number and the exponent of the last one. -/
structure Numeral where
  digits : List Char
  exponent : Int
  deriving DecidableEq, Repr

/-- The double nearest to a number. Numbers far out of range are not computed. -/
def Numeral.toDouble (n : Numeral) : Float :=
  let ds := n.digits.dropWhile (· = '0')
  let top := n.exponent + ds.length - 1
  if ds.isEmpty || top < -400 then 0.0
  else if 400 < top then Float.ofBits 0x7FF0000000000000
  else
    let num := valueOf ds * tenTo n.exponent.toNat
    let den := tenTo (-n.exponent).toNat
    Float.ofBits (Double.nearestBits num den).toUInt64

/-- The bound past which the size of an exponent does not grow: once the digits read so far have
come to it, the digits after them do not count. -/
def exponentBound : Nat := 0x10000

/-- The size of an exponent. -/
def exponentOf (ds : List Char) : Nat :=
  ds.foldl (fun size d => if size < exponentBound then appendDigit size d else size) 0

/-- The digits at the front of a text, and the rest of it. -/
def spanDigits (cs : List Char) : List Char × List Char :=
  (cs.takeWhile Char.isDigit, cs.dropWhile Char.isDigit)

/-- The exponent part of a number, which must be the whole text. -/
def exponent? : List Char → Option Int
  | [] => some 0
  | mark :: cs =>
    if mark ≠ 'e' && mark ≠ 'E' then none
    else
      let (negative, ds) := match cs with
        | '-' :: ds => (true, ds)
        | '+' :: ds => (false, ds)
        | ds => (false, ds)
      if ds.isEmpty || !ds.all Char.isDigit then none
      else some (if negative then -(exponentOf ds : Int) else exponentOf ds)

/-- An unsigned number: digits, an optional point with more digits, an optional exponent. One
side of the point may lack digits, not both. -/
def unsigned? (cs : List Char) : Option Numeral :=
  let (whole, rest) := spanDigits cs
  let (fraction, rest) := match rest with
    | '.' :: rest => spanDigits rest
    | rest => ([], rest)
  if whole.isEmpty && fraction.isEmpty then none
  else (exponent? rest).map fun e => ⟨whole ++ fraction, e - fraction.length⟩

/-- The sign of a number, true for a minus, and what follows it. -/
def sign (cs : List Char) : Bool × List Char :=
  match cs with
  | '-' :: rest => (true, rest)
  | '+' :: rest => (false, rest)
  | rest => (false, rest)

/-- What is written with letters instead of digits, in any case. -/
def named? (cs : List Char) : Option Float :=
  match String.ofList (cs.map Char.toLower) with
  | "inf" | "infinity" => some (Float.ofBits 0x7FF0000000000000)
  | "nan" => some (Float.ofBits 0x7FF8000000000000)
  | _ => none

/-- The double written by a text: a number or a name, with an optional sign. -/
def float? (text : String) : Option Float :=
  let (negative, cs) := sign text.toList
  let size := ((unsigned? cs).map Numeral.toDouble).or (named? cs)
  size.map fun x => if negative then -x else x

/-- The integer of 64 bits written by a text of digits with an optional sign. -/
def int64? (text : String) : Option Int :=
  let (negative, ds) := sign text.toList
  if ds.isEmpty || !ds.all Char.isDigit then none
  else
    let n : Int := if negative then -(valueOf ds : Int) else valueOf ds
    if -(twoTo 63 : Int) ≤ n && n < twoTo 63 then some n else none

/-- Two hexadecimal digits. -/
def hexByte (b : UInt8) : List Char :=
  [Nat.digitChar (b.toNat / 16), Nat.digitChar (b.toNat % 16)]

end Decimal

end ScoreScript
