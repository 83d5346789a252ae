import ScoreScript.Script.Grammar.Expression

/-!
The grammar of operations with one rule for each level. The rule of a level reads an operand by the
rule of the next tighter level and, as long as an operator of its own level comes, another operand by
that same rule; nothing looks at any other level. This is how languages are defined, and what
`Grammar.operation` is another way to read.
-/

namespace ScoreScript.Script.Grammar.Layered
open Rule

/-! ### Runs of operands -/

/-- One more operator of a level and its right operand. -/
def leftStep (operator? : TokenKind → Option BinaryOperator) (later : Rule Expr) (start : Pos)
    (left : Expr) : Rule (Option Expr) := do
  match operator? (← look) with
  | none => return none
  | some op =>
    let _ ← take
    let right ← later
    return some (.binary left op right (← spanFrom start))

/-- Operands with operators of one level between them, which are joined from the left. -/
def leftRun (operator? : TokenKind → Option BinaryOperator) (operand later : Rule Expr) :
    Rule Expr := do
  let start ← here
  let first ← operand
  loop (leftStep operator? later start) first

/-- Operands with one word between them, all in one node. -/
def wordRun (word : Keyword) (op : BooleanOperator) (operand later : Rule Expr) : Rule Expr := do
  let start ← here
  let first ← operand
  if ← isNext (.word word) then
    let rest ← many (when? (accept (.word word)) later)
    return .boolean op (first :: rest) (← spanFrom start)
  else return first

/-- An operand and the comparisons after it, all in one node. -/
def comparisonRun (k : Knot) (operand : Rule Expr) : Rule Expr := do
  let start ← here
  let first ← operand
  match CompareOperator.ofKinds? (← look) (← lookAhead) with
  | none => return first
  | some _ =>
    let rest ← many (comparison k)
    return .compare first rest (← spanFrom start)

/-! ### Levels, tightest first -/

def productOperator? : TokenKind → Option BinaryOperator
  | .op .times => some .mult
  | .op .matrix => some .matMult
  | .op .divide => some .div
  | .op .floorDiv => some .floorDiv
  | .op .modulo => some .mod
  | _ => none

def sumOperator? : TokenKind → Option BinaryOperator
  | .op .plus => some .add
  | .op .minus => some .sub
  | _ => none

def shiftOperator? : TokenKind → Option BinaryOperator
  | .op .shiftLeft => some .lShift
  | .op .shiftRight => some .rShift
  | _ => none

def ampersand? : TokenKind → Option BinaryOperator
  | .op .ampersand => some .bitAnd
  | _ => none

def caret? : TokenKind → Option BinaryOperator
  | .op .caret => some .bitXor
  | _ => none

def bar? : TokenKind → Option BinaryOperator
  | .op .bar => some .bitOr
  | _ => none

def product (k : Knot) : Rule Expr :=
  leftRun productOperator? (factor k) (k.operation .factor)

def sum (k : Knot) : Rule Expr :=
  leftRun sumOperator? (product k) (k.operation .product)

def shift (k : Knot) : Rule Expr :=
  leftRun shiftOperator? (sum k) (k.operation .sum)

def bitAnd (k : Knot) : Rule Expr :=
  leftRun ampersand? (shift k) (k.operation .shift)

def bitXor (k : Knot) : Rule Expr :=
  leftRun caret? (bitAnd k) (k.operation .bitAnd)

def bitOr (k : Knot) : Rule Expr :=
  leftRun bar? (bitXor k) (k.operation .bitXor)

def compareTest (k : Knot) : Rule Expr :=
  comparisonRun k (bitOr k)

/-- A comparison, perhaps negated, and that perhaps negated in turn. -/
def notTest (k : Knot) : Rule Expr := do
  let start ← here
  if ← accept (.word .notKw) then
    let operand ← nested (k.operation .not)
    return .unary .not operand (← spanFrom start)
  else compareTest k

def andTest (k : Knot) : Rule Expr :=
  wordRun .andKw .and (notTest k) (k.operation .not)

def orTest (k : Knot) : Rule Expr :=
  wordRun .orKw .or (andTest k) (k.operation .and)

/-- The rule of a level. -/
def layer (k : Knot) : Level → Rule Expr
  | .or => orTest k
  | .and => andTest k
  | .not => notTest k
  | .compare => compareTest k
  | .bitOr => bitOr k
  | .bitXor => bitXor k
  | .bitAnd => bitAnd k
  | .shift => shift k
  | .sum => sum k
  | .product => product k
  | .factor => factor k

/-! ### The circle of rules -/

def expression (k : Knot) : Rule Expr := nested do
  if ← isNext (.word .lambdaKw) then lambda k
  else
    let start ← here
    let body ← orTest k
    if ← accept (.word .ifKw) then
      let test ← orTest k
      expect (.word .elseKw)
      let other ← k.expression
      return .conditional test body other (← spanFrom start)
    else return body

/-- The rules after so many rounds of coming back to them. -/
def rounds (hole : Nat → String → Except Error Expr) : (size : Nat) → Knot
  | 0 => ⟨unexpected "expression", fun _ => unexpected "expression", unexpected "expression", hole⟩
  | size + 1 =>
    ⟨expression (rounds hole size), layer (rounds hole size), factor (rounds hole size), hole⟩

/-- The rules of expressions for a stream of at most `size` tokens. -/
def knot (hole : Nat → String → Except Error Expr) (size : Nat) : Knot :=
  rounds hole (size + 1)

/-- Read the expression of a hole to its end. -/
def readHole : (levels : Nat) → (maxDepth : Nat) → String → Except Error Expr
  | 0, _, _ => .error (.bare (.grammar .deepFormatSpec))
  | levels + 1, maxDepth, source => do
    let tokens ← Script.tokens (utf8 (trim source))
    let k := knot (readHole levels) tokens.length
    let whole : Rule Expr := do
      let value ← expressions k
      match ← look with
      | .newline | .eof => return value
      | _ => unexpected "'\x7d'"
    let (value, _) ← whole ⟨maxDepth, 0⟩ (.ofTokens tokens)
    return value

end ScoreScript.Script.Grammar.Layered
