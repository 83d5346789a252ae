/-!
The operators and brackets of scripts, and the two-place operators among them.
-/

namespace ScoreScript.Script

inductive Operator where
  | powerAssign | floorDivAssign | shiftRightAssign | shiftLeftAssign | ellipsis
  | power | floorDiv | shiftLeft | shiftRight | lessEq | greaterEq | equal | notEqual | arrow
  | plusAssign | minusAssign | timesAssign | divideAssign | moduloAssign | andAssign
  | orAssign | xorAssign | matrixAssign | walrus
  | plus | minus | times | divide | modulo | matrix | ampersand | bar | caret | tilde
  | less | greater
  | leftParen | rightParen | leftBracket | rightBracket | leftBrace | rightBrace
  | comma | colon | semicolon | dot | assign
  deriving DecidableEq, Repr

namespace Operator

/-- Every operator, longer spellings before shorter ones. -/
def all : List Operator := [
  powerAssign, floorDivAssign, shiftRightAssign, shiftLeftAssign, ellipsis,
  power, floorDiv, shiftLeft, shiftRight, lessEq, greaterEq, equal, notEqual, arrow,
  plusAssign, minusAssign, timesAssign, divideAssign, moduloAssign, andAssign,
  orAssign, xorAssign, matrixAssign, walrus,
  plus, minus, times, divide, modulo, matrix, ampersand, bar, caret, tilde,
  less, greater,
  leftParen, rightParen, leftBracket, rightBracket, leftBrace, rightBrace,
  comma, colon, semicolon, dot, assign]

/-- The spelling of an operator. -/
def text : Operator → String
  | powerAssign => "**="
  | floorDivAssign => "//="
  | shiftRightAssign => ">>="
  | shiftLeftAssign => "<<="
  | ellipsis => "..."
  | power => "**"
  | floorDiv => "//"
  | shiftLeft => "<<"
  | shiftRight => ">>"
  | lessEq => "<="
  | greaterEq => ">="
  | equal => "=="
  | notEqual => "!="
  | arrow => "->"
  | plusAssign => "+="
  | minusAssign => "-="
  | timesAssign => "*="
  | divideAssign => "/="
  | moduloAssign => "%="
  | andAssign => "&="
  | orAssign => "|="
  | xorAssign => "^="
  | matrixAssign => "@="
  | walrus => ":="
  | plus => "+"
  | minus => "-"
  | times => "*"
  | divide => "/"
  | modulo => "%"
  | matrix => "@"
  | ampersand => "&"
  | bar => "|"
  | caret => "^"
  | tilde => "~"
  | less => "<"
  | greater => ">"
  | leftParen => "("
  | rightParen => ")"
  | leftBracket => "["
  | rightBracket => "]"
  | leftBrace => "\x7b"
  | rightBrace => "\x7d"
  | comma => ","
  | colon => ":"
  | semicolon => ";"
  | dot => "."
  | assign => "="

/-- The operator with a spelling. -/
def ofText? (word : String) : Option Operator :=
  all.find? (·.text == word)

def isOpening : Operator → Bool
  | leftParen | leftBracket | leftBrace => true
  | _ => false

def isClosing : Operator → Bool
  | rightParen | rightBracket | rightBrace => true
  | _ => false

theorem mem_all (op : Operator) : op ∈ all := by
  cases op <;> decide

theorem length_text_pos (op : Operator) : 0 < op.text.length := by
  cases op <;> decide

end Operator

/-- The operators that combine two values. -/
inductive BinaryOperator where
  | add | sub | mult | matMult | div | floorDiv | mod | pow | lShift | rShift
  | bitOr | bitXor | bitAnd
  deriving DecidableEq, Repr

namespace BinaryOperator

def ofOperator? : Operator → Option BinaryOperator
  | .plus => some add
  | .minus => some sub
  | .times => some mult
  | .matrix => some matMult
  | .divide => some div
  | .floorDiv => some floorDiv
  | .modulo => some mod
  | .power => some pow
  | .shiftLeft => some lShift
  | .shiftRight => some rShift
  | .bar => some bitOr
  | .caret => some bitXor
  | .ampersand => some bitAnd
  | _ => none

/-- The operator that an augmented assignment applies. -/
def ofAugmented? : Operator → Option BinaryOperator
  | .plusAssign => some add
  | .minusAssign => some sub
  | .timesAssign => some mult
  | .matrixAssign => some matMult
  | .divideAssign => some div
  | .floorDivAssign => some floorDiv
  | .moduloAssign => some mod
  | .powerAssign => some pow
  | .shiftLeftAssign => some lShift
  | .shiftRightAssign => some rShift
  | .orAssign => some bitOr
  | .xorAssign => some bitXor
  | .andAssign => some bitAnd
  | _ => none

end BinaryOperator

end ScoreScript.Script
