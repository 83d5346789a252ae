import ScoreScript.Decimal.Text

/-!
Script literals of texts. Single quotes are used, or double quotes where that avoids an escape.
-/

namespace ScoreScript

/-- One character of a literal between the quotes `delimiter`. -/
def literalChar (delimiter : Char) (c : Char) : List Char :=
  match c with
  | '\\' => ['\\', '\\']
  | '\n' => ['\\', 'n']
  | '\r' => ['\\', 'r']
  | '\t' => ['\\', 't']
  | c => if c = delimiter then ['\\', c] else [c]

/-- The quotes that a text is put in. -/
def delimiterFor (text : List Char) : Char :=
  if text.contains '\'' && !text.contains '"' then '"' else '\''

/-- The literal that a script writes for a text. -/
def quote (text : String) : String :=
  let delimiter := delimiterFor text.toList
  String.ofList (delimiter :: text.toList.flatMap (literalChar delimiter) ++ [delimiter])

/-!
The values that scripts compute with, and their text. A value inside a tuple, a mapping or a
bundle is shown as a script would write it.
-/

/-- The number of an element type in its catalogue. -/
structure TypeId where
  index : Nat
  deriving DecidableEq, Repr, Inhabited

mutual

inductive Value where
  | none
  | bool (b : Bool)
  | int (n : Int)
  | float (x : Float)
  | str (s : String)
  | bytes (bytes : List UInt8)
  | tuple (items : List Value)
  /-- Named arguments for a child; no script can write one. -/
  | map (entries : List (String × Value))
  | bundle (arguments : Arguments)
  /-- An element that was made before, known by its tag only. -/
  | element (tag : String)
  /-- A constructor of elements. -/
  | type (id : TypeId)
  /-- The helper that makes bundles. -/
  | helper

/-- The arguments of a call, positional ones first. -/
structure Arguments where
  positional : List Value
  named : List (String × Value)

end

namespace Value

instance : Inhabited Value := ⟨.none⟩

def isNone : Value → Bool
  | .none => true
  | _ => false

/-- The kind of a value, for messages. -/
def kindName : Value → String
  | .none => "None"
  | .bool _ => "bool"
  | .int _ => "int"
  | .float _ => "float"
  | .str _ => "str"
  | .bytes _ => "bytes"
  | .tuple _ => "tuple"
  | .map _ => "mapping"
  | .bundle _ => "argument bundle"
  | .element _ => "element"
  | .type _ => "element type"
  | .helper => "helper"

/-- The decimal exponents that are written with digits only. -/
def isPositional (exponent : Int) : Bool :=
  -4 ≤ exponent && exponent < 16

/-- A double as a script writes it: `4.0`, `0.25`, `1e-05`, `1e+16`, `inf`, `nan`. -/
def floatText (x : Float) : String :=
  if x.isNaN then "nan"
  else if x.isInf then Decimal.withSign x "inf".toList
  else
    let d := Decimal.ofFloat x
    if d.coefficient = 0 ∨ isPositional d.leading then
      let plain := d.positional
      Decimal.withSign x (if plain.contains '.' then plain else plain ++ ['.', '0'])
    else
      let size := (d.leading.natAbs / 10, d.leading.natAbs % 10)
      let power := Decimal.digits size.1 ++ Decimal.digits size.2
      Decimal.withSign x
        (d.significand ++ ['e', if d.leading < 0 then '-' else '+'] ++ power)

/-- One byte of a bytes literal. -/
def byteText (b : UInt8) : List Char :=
  match Char.ofUInt8 b with
  | '\\' => ['\\', '\\']
  | '\'' => ['\\', '\'']
  | c => if 0x20 ≤ b && b ≤ 0x7E then [c] else '\\' :: 'x' :: Decimal.hexByte b

def bytesText (bytes : List UInt8) : String :=
  String.ofList ("b'".toList ++ bytes.flatMap byteText ++ ['\''])

mutual

/-- The text of a value; `inside` a container a text is quoted. -/
def text (inside : Bool) : Value → String
  | .none => "None"
  | .bool true => "True"
  | .bool false => "False"
  | .int n => toString n
  | .float x => floatText x
  | .str s => if inside then quote s else s
  | .bytes bs => bytesText bs
  | .tuple items =>
    match texts items with
    | [only] => "(" ++ only ++ ",)"
    | parts => "(" ++ ", ".intercalate parts ++ ")"
  | .map entries => "\x7b" ++ ", ".intercalate (entryTexts true entries) ++ "\x7d"
  | .bundle ⟨positional, named⟩ =>
    "_(" ++ ", ".intercalate (texts positional ++ entryTexts false named) ++ ")"
  | .element tag => "<" ++ tag ++ ">"
  | .type id => "<element type " ++ toString id.index ++ ">"
  | .helper => "_"

def texts : List Value → List String
  | [] => []
  | v :: rest => text true v :: texts rest

/-- Named values, as a mapping shows them or as a call does. -/
def entryTexts (inMapping : Bool) : List (String × Value) → List String
  | [] => []
  | (name, v) :: rest =>
    ((if inMapping then quote name ++ ": " else name ++ "=") ++ text true v) ::
      entryTexts inMapping rest

end

/-- The text that a value becomes in an attribute or as the content of an element. -/
def display (v : Value) : String :=
  text false v

/-- The value as an item of a container shows it. -/
def literal (v : Value) : String :=
  text true v

end Value

end ScoreScript
