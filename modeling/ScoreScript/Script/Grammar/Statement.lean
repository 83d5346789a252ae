import ScoreScript.Script.Grammar.Simple

/-!
Statements that hold others, and whole scripts. As for expressions, a rule takes the rules it
may come back to as a record.
-/

namespace ScoreScript.Script

/-- The rules that a block comes back to once it has read a token: one for a statement, which
may be several on a line, and one for a condition with its branches. -/
structure Blocks where
  statement : Rule (List Stmt)
  branch : Rule Stmt

namespace Grammar
open Rule

/-- A line of an indented block: nothing, or statements. The block ends where its indentation
does. -/
def blockLine (b : Blocks) : Rule (Option (List Stmt)) := do
  match ← look with
  | .dedent =>
    let _ ← take
    return none
  | .eof => return none
  | .newline =>
    let _ ← take
    return some []
  | _ => some <$> b.statement

/-- The lines of a block below the one that it belongs to. -/
def indentedBlock (b : Blocks) : Rule (List Stmt) := do
  match ← look with
  | .indent =>
    let _ ← take
    return (← many (blockLine b)).flatten
  | _ => unexpected "indented block"

/-- A colon and the block after it, on the same line or below. -/
def block (b : Blocks) (k : Knot) : Rule (List Stmt) := do
  expect (.op .colon)
  nested do
    match ← look with
    | .newline =>
      let _ ← take
      indentedBlock b
    | _ => simpleStatements k

/-- The block of a keyword that may be left out. -/
def optionalBlock (b : Blocks) (k : Knot) (word : Keyword) : Rule (List Stmt) := do
  if ← accept (.word word) then block b k else return []

/-- What is done if a condition fails: another condition, or a block. -/
def otherwise (b : Blocks) (k : Knot) : Rule (List Stmt) := do
  if ← isNext (.word .elifKw) then return [← b.branch] else optionalBlock b k .elseKw

/-- A condition, from its `if` or `elif` on, and its branches. -/
def ifStatement (b : Blocks) (k : Knot) : Rule Stmt := do
  let start ← here
  let _ ← take
  let test ← namedExpression k
  let body ← block b k
  let other ← otherwise b k
  return .ifStmt test body other (← spanFrom start)

def whileStatement (b : Blocks) (k : Knot) : Rule Stmt := do
  let start ← here
  expect (.word .whileKw)
  let test ← namedExpression k
  let body ← block b k
  let other ← optionalBlock b k .elseKw
  return .whileStmt test body other (← spanFrom start)

def forStatement (b : Blocks) (k : Knot) : Rule Stmt := do
  let start ← here
  expect (.word .forKw)
  let target ← loopTarget k
  expect (.word .inKw)
  let source ← expressions k
  let body ← block b k
  let other ← optionalBlock b k .elseKw
  return .forStmt target source body other (← spanFrom start)

/-- What a `with` item is stored in. -/
def itemTarget (k : Knot) : Rule Expr := do
  let target ← starredOperand k
  lift (target.toTarget .store)

def withItem (k : Knot) : Rule WithItem := do
  let start ← here
  let context ← k.expression
  let target ← when? (accept (.word .asKw)) (itemTarget k)
  return ⟨context, target, ← spanFrom start⟩

def withStatement (b : Blocks) (k : Knot) : Rule Stmt := do
  let start ← here
  expect (.word .withKw)
  let items ← separated (withItem k)
  let body ← block b k
  return .withStmt items body (← spanFrom start)

def functionDef (b : Blocks) (k : Knot) (decorators : List Expr) : Rule Stmt := do
  let start ← here
  expect (.word .defKw)
  let name ← Rule.name
  expect (.op .leftParen)
  let params ← parameters k true (.op .rightParen)
  expect (.op .rightParen)
  let returns ← when? (accept (.op .arrow)) k.expression
  let body ← block b k
  return .functionDef name params body decorators returns (← spanFrom start)

def classDef (b : Blocks) (k : Knot) (decorators : List Expr) : Rule Stmt := do
  let start ← here
  expect (.word .classKw)
  let name ← Rule.name
  let (bases, keywords) ← if ← accept (.op .leftParen) then arguments k else pure ([], [])
  let body ← block b k
  return .classDef name bases keywords body decorators (← spanFrom start)

def decorator (k : Knot) : Rule Expr := do
  let value ← namedExpression k
  lineEnd
  return value

/-- A definition with decorators before it. -/
def decorated (b : Blocks) (k : Knot) : Rule Stmt := do
  let decorators ← many (when? (accept (.op .matrix)) (decorator k))
  match ← look with
  | .keyword .defKw => functionDef b k decorators
  | .keyword .classKw => classDef b k decorators
  | _ => unexpected "'def' or 'class'"

/-- What a handler handles, and the name that it gets. -/
def handled (k : Knot) : Rule (Option Expr × Option String) := do
  if ← isNext (.op .colon) then return (none, none)
  else
    let type ← k.expression
    let name ← when? (accept (.word .asKw)) name
    return (some type, name)

def exceptHandler (b : Blocks) (k : Knot) : Rule ExceptHandler := do
  let start ← here
  expect (.word .exceptKw)
  let (type, name) ← handled k
  let body ← block b k
  return .mk type name body (← spanFrom start)

def tryStatement (b : Blocks) (k : Knot) : Rule Stmt := do
  let start ← here
  expect (.word .tryKw)
  let body ← block b k
  let handlers ← many (when? (isNext (.word .exceptKw)) (exceptHandler b k))
  let other ← optionalBlock b k .elseKw
  let final ← optionalBlock b k .finallyKw
  if handlers.isEmpty && final.isEmpty then unexpected "'except' or 'finally'"
  else return .tryStmt body handlers other final (← spanFrom start)

/-- A statement with blocks, or a line of statements without. -/
def statement (b : Blocks) (k : Knot) : Rule (List Stmt) := do
  match ← look with
  | .keyword .ifKw => return [← ifStatement b k]
  | .keyword .whileKw => return [← whileStatement b k]
  | .keyword .forKw => return [← forStatement b k]
  | .keyword .withKw => return [← withStatement b k]
  | .keyword .defKw => return [← functionDef b k []]
  | .keyword .classKw => return [← classDef b k []]
  | .keyword .tryKw => return [← tryStatement b k]
  | .op .matrix => return [← decorated b k]
  | _ => simpleStatements k

mutual

/-- The rules of statements for a stream of fewer than `size` tokens. -/
def statementWithin (k : Knot) : (size : Nat) → Rule (List Stmt)
  | 0 => unexpected "expression"
  | size + 1 => fun nesting s =>
    statement ⟨statementWithin k size, branchWithin k size⟩ k nesting s

def branchWithin (k : Knot) : (size : Nat) → Rule Stmt
  | 0 => unexpected "expression"
  | size + 1 => fun nesting s =>
    ifStatement ⟨statementWithin k size, branchWithin k size⟩ k nesting s

end

/-- A line of a script outside of all blocks. -/
def scriptLine (k : Knot) (size : Nat) : Rule (Option (List Stmt)) := do
  match ← look with
  | .eof => return none
  | .newline =>
    let _ ← take
    return some []
  | _ => some <$> statementWithin k (size + 1)

/-- All statements of a stream of at most `size` tokens. -/
def script (k : Knot) (size : Nat) : Rule Module := do
  return ⟨(← many (scriptLine k size)).flatten⟩

end Grammar

/-- The limits on scripts where no others are given. -/
def defaultLimits : Limits := ⟨32, 1048576⟩

/-- The syntax tree of a sequence of tokens; holes of format strings nest as deep as `levels`. -/
def Module.ofTokens (maxDepth levels : Nat) (tokens : List (Token TokenKind)) :
    Except Error Module := do
  let k := Grammar.knot (Grammar.readHole levels) tokens.length
  let (m, _) ← Grammar.script k tokens.length ⟨maxDepth, 0⟩ (.ofTokens tokens)
  return m

/-- The syntax tree of a script. -/
def Module.ofText (limits : Limits) (text : String) : Except Error Module := do
  let bytes := utf8 text
  limits.checkSize bytes.length
  let tokens ← Script.tokens bytes
  Module.ofTokens limits.maxDepth bytes.length tokens

end ScoreScript.Script
