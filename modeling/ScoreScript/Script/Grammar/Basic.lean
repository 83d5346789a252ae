import ScoreScript.Error
import ScoreScript.Script.Syntax
import ScoreScript.Script.Stream

/-!
Expressions as targets. What is assigned to or deleted is read as an expression first; only
names, members, subscripts, and groups of targets are targets.
-/

namespace ScoreScript.Script

mutual

/-- The expression put to another use. The owner and the index of a place keep theirs. -/
def Expr.toTarget (use : Use) : Expr → Except Error Expr
  | .name id _ span => .ok (.name id use span)
  | .member owner field _ span => .ok (.member owner field use span)
  | .subscript owner index _ span => .ok (.subscript owner index use span)
  | .starred value _ span => do return .starred (← value.toTarget use) use span
  | .tuple items _ span => do return .tuple (← toTargets use items) use span
  | .list items _ span => do return .list (← toTargets use items) use span
  | e => .error ⟨.grammar (.invalidTarget e.kind), e.span⟩

def toTargets (use : Use) : List Expr → Except Error (List Expr)
  | [] => .ok []
  | e :: rest => do return (← e.toTarget use) :: (← toTargets use rest)

end

/-!
The rules that expressions and statements share. A rule that reads an operand refers to the
rules for whole expressions, which in turn refer to it. The circle is cut here: each rule takes
the rules that it may come back to as a record, and comes back only after it has read a token.
-/

/-- How tightly operators bind, loosest first. -/
inductive Level where
  | or | and | not | compare | bitOr | bitXor | bitAnd | shift | sum | product | factor
  deriving DecidableEq, Repr

namespace Level

def rank : Level → Nat
  | or => 0
  | and => 1
  | not => 2
  | compare => 3
  | bitOr => 4
  | bitXor => 5
  | bitAnd => 6
  | shift => 7
  | sum => 8
  | product => 9
  | factor => 10

/-- The level of the operands of a left-associative operator. -/
def next : Level → Level
  | or => and
  | and => not
  | not => compare
  | compare => bitOr
  | bitOr => bitXor
  | bitXor => bitAnd
  | bitAnd => shift
  | shift => sum
  | sum => product
  | product => factor
  | factor => factor

end Level

/-- The rules that a rule may come back to once it has read a token: an expression, an
operation with operators of at least a level, and an operand with its sign. The last one reads
the expression in a hole of a format string, in a text of its own, with a limit on nesting. -/
structure Knot where
  expression : Rule Expr
  operation : Level → Rule Expr
  factor : Rule Expr
  hole : Nat → String → Except Error Expr

namespace Grammar
open Rule

/-- An expression, or several with commas between them, which form a tuple. -/
def tupleOr (isEnd : Rule Bool) (item : Rule Expr) : Rule Expr := do
  let start ← here
  let first ← item
  if ← isNext (.op .comma) then
    let items ← furtherItems isEnd item first
    return .tuple items .load (← spanFrom start)
  else return first

/-- An operand of bitwise operators, perhaps with a star. -/
def starredOperand (k : Knot) : Rule Expr := do
  let start ← here
  if ← accept (.op .times) then
    let value ← k.operation .bitOr
    return .starred value .load (← spanFrom start)
  else k.operation .bitOr

def starredExpression (k : Knot) : Rule Expr := do
  if ← isNext (.op .times) then starredOperand k else k.expression

/-- Whether a list of expressions cannot go on here. -/
def isExpressionEnd : Rule Bool := do
  match ← look with
  | .newline | .eof | .indent | .dedent => return true
  | .op .semicolon | .op .assign | .op .colon | .op .rightParen | .op .rightBracket
  | .op .rightBrace => return true
  | .op sign => return (BinaryOperator.ofAugmented? sign).isSome
  | _ => return false

/-- Expressions with commas between them. -/
def expressions (k : Knot) : Rule Expr :=
  tupleOr isExpressionEnd (starredExpression k)

/-- An expression, or a name that is given a value. -/
def namedExpression (k : Knot) : Rule Expr := do
  let start ← here
  let target ← k.expression
  if ← isNext (.op .walrus) then
    match target with
    | .name id _ span =>
      let _ ← take
      let value ← k.expression
      return .named (.name id .store span) value (← spanFrom start)
    | other => fail (.invalidTarget other.kind) other.span
  else return target

/-- What a loop assigns to, up to its `in`. -/
def loopTarget (k : Knot) : Rule Expr := do
  let target ← tupleOr (isNext (.word .inKw)) (starredOperand k)
  lift (target.toTarget .store)

/-- A `for` clause. -/
def comprehension (k : Knot) : Rule Comprehension := do
  let start ← here
  expect (.word .forKw)
  let target ← loopTarget k
  expect (.word .inKw)
  let source ← k.operation .or
  let conditions ← many (when? (accept (.word .ifKw)) (k.operation .or))
  return .mk target source conditions (← spanFrom start)

/-- The clauses of a comprehension. -/
def comprehensions (k : Knot) : Rule (List Comprehension) :=
  many (when? (isNext (.word .forKw)) (comprehension k))

def yieldExpression (k : Knot) : Rule Expr := do
  let start ← here
  expect (.word .yieldKw)
  if ← accept (.word .fromKw) then
    let value ← k.expression
    return .yieldFrom value (← spanFrom start)
  else
    let value ← when? (return !(← isExpressionEnd)) (expressions k)
    return .yield value (← spanFrom start)

end Grammar

end ScoreScript.Script
