import ScoreScript.Script.Grammar.Argument
import ScoreScript.Script.Grammar.Display
import ScoreScript.Script.Grammar.Text
import ScoreScript.Script.Layout
import ScoreScript.Text.Blank

/-!
Expressions, from literals and names up to conditionals. Operators are read by climbing: an
operation of some level is an operand followed by as many operators of that level or a tighter
one as come, each of which takes what was read so far as its left side.

`knot` ties the rules into a circle for a stream of at most so many tokens, and `readHole` does
so once more for each hole in a hole.
-/

namespace ScoreScript.Script

/-- What comes between two operands. -/
inductive Joint where
  | boolean (word : Keyword) (op : BooleanOperator)
  | compare
  | binary (op : BinaryOperator)
  deriving DecidableEq, Repr

namespace BinaryOperator

/-- The level of an operator that joins from the left. -/
def level? : BinaryOperator → Option Level
  | bitOr => some .bitOr
  | bitXor => some .bitXor
  | bitAnd => some .bitAnd
  | lShift | rShift => some .shift
  | add | sub => some .sum
  | mult | matMult | div | floorDiv | mod => some .product
  | pow => none

end BinaryOperator

namespace CompareOperator

/-- The comparison that two tokens begin with, and whether it is spelled with both. -/
def ofKinds? : TokenKind → TokenKind → Option (CompareOperator × Bool)
  | .op .equal, _ => some (equal, false)
  | .op .notEqual, _ => some (notEqual, false)
  | .op .less, _ => some (less, false)
  | .op .lessEq, _ => some (lessEq, false)
  | .op .greater, _ => some (greater, false)
  | .op .greaterEq, _ => some (greaterEq, false)
  | .keyword .inKw, _ => some (isIn, false)
  | .keyword .notKw, .keyword .inKw => some (notIn, true)
  | .keyword .isKw, .keyword .notKw => some (isNot, true)
  | .keyword .isKw, _ => some (is, false)
  | _, _ => none

end CompareOperator

namespace Joint

/-- The joint that two tokens begin with, and its level. -/
def ofKinds? (first second : TokenKind) : Option (Level × Joint) :=
  match first with
  | .keyword .orKw => some (.or, boolean .orKw .or)
  | .keyword .andKw => some (.and, boolean .andKw .and)
  | _ =>
    if (CompareOperator.ofKinds? first second).isSome then some (.compare, compare)
    else
      match first with
      | .op sign => do
        let op ← BinaryOperator.ofOperator? sign
        return (← op.level?, binary op)
      | _ => none

end Joint

namespace UnaryOperator

/-- The sign before an operand. -/
def ofKind? : TokenKind → Option UnaryOperator
  | .op .minus => some minus
  | .op .plus => some plus
  | .op .tilde => some invert
  | _ => none

end UnaryOperator

namespace Grammar
open Rule

/-- A token that is an expression by itself. -/
def constantOf? : TokenKind → Option Constant
  | .int n => some (.int n)
  | .float x => some (.float x)
  | .keyword .noneKw => some .none
  | .keyword .trueKw => some (.bool true)
  | .keyword .falseKw => some (.bool false)
  | .op .ellipsis => some .ellipsis
  | _ => none

/-- A name, a literal, or something in brackets. -/
def atom (k : Knot) : Rule Expr := do
  let start ← here
  match ← look with
  | .name id =>
    let token ← take
    return .name id .load token.span
  | .string _ _ => strings k
  | .op .leftParen =>
    let _ ← take
    nested (parenthesized k start)
  | .op .leftBracket =>
    let _ ← take
    nested (listDisplay k start)
  | .op .leftBrace =>
    let _ ← take
    nested (braceDisplay k start)
  | kind =>
    match constantOf? kind with
    | some value =>
      let token ← take
      return .constant value token.span
    | none => unexpected "expression"

/-- Apply one more call, index or member access to an expression. -/
def postfixed (k : Knot) (start : Pos) (owner : Expr) : Rule (Option Expr) := do
  if ← accept (.op .leftParen) then
    let (args, keywords) ← arguments k
    return some (.call owner args keywords (← spanFrom start))
  else if ← accept (.op .leftBracket) then
    let index ← slices k
    expect (.op .rightBracket)
    return some (.subscript owner index .load (← spanFrom start))
  else if ← accept (.op .dot) then
    let field ← name
    return some (.member owner field .load (← spanFrom start))
  else return none

def primary (k : Knot) : Rule Expr := do
  let start ← here
  loop (postfixed k start) (← atom k)

/-- An operand, perhaps raised to a power; the exponent takes its own sign and power first. -/
def power (k : Knot) : Rule Expr := do
  let start ← here
  let base ←
    if ← accept (.word .awaitKw) then
      let value ← primary k
      pure (.await value (← spanFrom start))
    else primary k
  if ← accept (.op .power) then
    let exponent ← nested k.factor
    return .binary base .pow exponent (← spanFrom start)
  else return base

/-- An operand with its signs. -/
def factor (k : Knot) : Rule Expr := do
  let start ← here
  match UnaryOperator.ofKind? (← look) with
  | some op =>
    let _ ← take
    let operand ← nested k.factor
    return .unary op operand (← spanFrom start)
  | none => power k

/-- The first operand of an operation. A `not` may stand before it if the operation is loose
enough. -/
def firstOperand (k : Knot) (min : Level) : Rule Expr := do
  let start ← here
  let negated ← if min.rank ≤ Level.not.rank then accept (.word .notKw) else pure false
  if negated then
    let operand ← nested (k.operation .not)
    return .unary .not operand (← spanFrom start)
  else factor k

/-- A further step of a chain of comparisons. -/
def comparison (k : Knot) : Rule (Option Comparison) := do
  match CompareOperator.ofKinds? (← look) (← lookAhead) with
  | none => return none
  | some (op, isLong) =>
    let _ ← take
    if isLong then
      let _ ← take
    return some (.mk op (← k.operation Level.compare.next))

/-- Apply the operator that comes next, if it is of level `min` or tighter. -/
def extend (k : Knot) (min : Level) (start : Pos) (left : Expr) : Rule (Option Expr) := do
  match Joint.ofKinds? (← look) (← lookAhead) with
  | none => return none
  | some (level, joint) =>
    if level.rank < min.rank then return none
    else
      match joint with
      | .boolean word op =>
        let rest ← many (when? (accept (.word word)) (k.operation level.next))
        return some (.boolean op (left :: rest) (← spanFrom start))
      | .compare =>
        let rest ← many (comparison k)
        return some (.compare left rest (← spanFrom start))
      | .binary op =>
        let _ ← take
        let right ← k.operation level.next
        return some (.binary left op right (← spanFrom start))

/-- Operators of level `min` or tighter, and their operands. -/
def operation (k : Knot) (min : Level) : Rule Expr := do
  let start ← here
  loop (extend k min start) (← firstOperand k min)

def lambda (k : Knot) : Rule Expr := do
  let start ← here
  expect (.word .lambdaKw)
  let params ← parameters k false (.op .colon)
  expect (.op .colon)
  let body ← k.expression
  return .lambda params body (← spanFrom start)

/-- An operation, perhaps a conditional one, or a function without a name. -/
def expression (k : Knot) : Rule Expr := nested do
  if ← isNext (.word .lambdaKw) then lambda k
  else
    let start ← here
    let body ← operation k .or
    if ← accept (.word .ifKw) then
      let test ← operation k .or
      expect (.word .elseKw)
      let other ← k.expression
      return .conditional test body other (← spanFrom start)
    else return body

mutual

/-- The rules of expressions for a stream of fewer than `size` tokens. -/
def expressionWithin (hole : Nat → String → Except Error Expr) : (size : Nat) → Rule Expr
  | 0 => unexpected "expression"
  | size + 1 => fun nesting s =>
    expression
      ⟨expressionWithin hole size, operationWithin hole size, factorWithin hole size, hole⟩
      nesting s

def operationWithin (hole : Nat → String → Except Error Expr) : (size : Nat) → Level → Rule Expr
  | 0, _ => unexpected "expression"
  | size + 1, min => fun nesting s =>
    operation
      ⟨expressionWithin hole size, operationWithin hole size, factorWithin hole size, hole⟩
      min nesting s

def factorWithin (hole : Nat → String → Except Error Expr) : (size : Nat) → Rule Expr
  | 0 => unexpected "expression"
  | size + 1 => fun nesting s =>
    factor
      ⟨expressionWithin hole size, operationWithin hole size, factorWithin hole size, hole⟩
      nesting s

end

/-- The rules of expressions for a stream of at most `size` tokens. Each token read makes room
for one more return to them. -/
def knot (hole : Nat → String → Except Error Expr) (size : Nat) : Knot :=
  ⟨expressionWithin hole (size + 1), operationWithin hole (size + 1),
    factorWithin hole (size + 1), hole⟩

/-- Read the expression of a hole to its end. Holes nest as deep as `levels`, which the length
of the text around them bounds. -/
def readHole : (levels : Nat) → (maxDepth : Nat) → String → Except Error Expr
  | 0, _, _ => .error (.bare (.grammar .deepFormatSpec))
  | levels + 1, maxDepth, source => do
    let tokens ← Script.tokens (utf8 (trim source))
    let k := knot (readHole levels) tokens.length
    let whole : Rule Expr := do
      let value ← expressions k
      match ← look with
      | .newline | .eof => return value
      | _ => unexpected "'\x7d'"
    let (value, _) ← whole ⟨maxDepth, 0⟩ (.ofTokens tokens)
    return value

end Grammar

end ScoreScript.Script
