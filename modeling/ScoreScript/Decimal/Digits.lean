/-!
Digits in a base of at most sixteen, and the powers that numbers are scaled by.
-/

namespace ScoreScript

/-- A power of two. -/
def twoTo (n : Nat) : Nat := Nat.pow 2 n

/-- A power of ten. -/
def tenTo (n : Nat) : Nat := Nat.pow 10 n

theorem tenTo_zero : tenTo 0 = 1 := rfl

theorem tenTo_succ (n : Nat) : tenTo (n + 1) = tenTo n * 10 := rfl

/-- The value of a digit in a base. -/
def digit? (base : Nat) (c : Char) : Option Nat :=
  let n := c.toNat
  let value :=
    if '0'.toNat ≤ n && n ≤ '9'.toNat then n - '0'.toNat
    else if 'a'.toNat ≤ n && n ≤ 'f'.toNat then n - 'a'.toNat + 10
    else if 'A'.toNat ≤ n && n ≤ 'F'.toNat then n - 'A'.toNat + 10
    else base
  if value < base then some value else none

/-- The number below `limit` written by some digits, after others of value `before`. -/
def digitsFrom? (base limit before : Nat) : List Char → Option Nat
  | [] => some before
  | c :: rest =>
    (digit? base c).bind fun d =>
      let n := before * base + d
      if n < limit then digitsFrom? base limit n rest else none

/-- The number below `limit` written by digits, of which there is at least one. -/
def number? (base limit : Nat) (digits : List Char) : Option Nat :=
  if digits.isEmpty then none else digitsFrom? base limit 0 digits

/-- No character has a number as large as this. -/
def charLimit : Nat := 0x110000

/-- The character with a number, unless that is the number of a surrogate or of none. -/
def char? (n : Nat) : Option Char :=
  if h : n.isValidChar then some (Char.ofNatAux n h) else none

end ScoreScript
