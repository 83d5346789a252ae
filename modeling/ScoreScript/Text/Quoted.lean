import ScoreScript.Text.PrintTable

/-!
Text quoted inside messages. What stands between the quotes is visible: control characters,
combining marks and characters without a printed form are written as escapes.
-/

namespace ScoreScript

def isCombining (c : Char) : Bool :=
  inTable PrintTable.combining c

def isPrintable (c : Char) : Bool :=
  if c.toNat < 128 then 0x20 ≤ c.toNat && c.toNat < 0x7F
  else !inTable PrintTable.unprintable c

/-- The digits of a number in base sixteen, without leading zeros. -/
def hexDigits (n : Nat) : List Char :=
  Nat.toDigits 16 n

/-- One character between the quotes `quote`. -/
def quotedChar (quote : Char) (c : Char) : List Char :=
  match c with
  | '\x00' => ['\\', '0']
  | '\t' => ['\\', 't']
  | '\n' => ['\\', 'n']
  | '\r' => ['\\', 'r']
  | '\\' => ['\\', '\\']
  | c =>
    if c = quote then ['\\', c]
    else if !isCombining c && isPrintable c then [c]
    else ['\\', 'u', '\x7b'] ++ hexDigits c.toNat ++ ['\x7d']

/-- A text between double quotes. -/
def quoted (text : String) : String :=
  String.ofList ('"' :: text.toList.flatMap (quotedChar '"') ++ ['"'])

/-- A single character between single quotes. -/
def quotedLetter (c : Char) : String :=
  String.ofList ('\'' :: quotedChar '\'' c ++ ['\''])

end ScoreScript
