import ScoreScript.Script.Grammar.Expression

/-!
Statements that fit on a line.
-/

namespace ScoreScript.Script.Grammar
open Rule

def isStatementEnd : Rule Bool := do
  match ← look with
  | .newline | .eof | .op .semicolon => return true
  | _ => return false

/-- The end of a line, or of the text. -/
def lineEnd : Rule Unit := do
  match ← look with
  | .newline =>
    let _ ← take
    return ()
  | .eof => return ()
  | _ => unexpected "end of line"

/-- Names with dots between them. -/
def dottedName : Rule String := do
  let first ← name
  let rest ← many (when? (accept (.op .dot)) name)
  return ".".intercalate (first :: rest)

/-- A name to import, read by `path`, and what it is called afterwards. -/
def importName (path : Rule String) : Rule Alias := do
  let start ← here
  let name ← path
  let rename ← when? (accept (.word .asKw)) Rule.name
  return ⟨name, rename, ← spanFrom start⟩

/-- How many levels the dots before a module's name go up. -/
def importLevel : Rule Nat := do
  let dots ← many do
    if ← accept (.op .dot) then return some 1
    else if ← accept (.op .ellipsis) then return some 3
    else return none
  return dots.foldl (· + ·) 0

/-- The names after `import`: all of them, or some, perhaps in brackets. -/
def importNames : Rule (List Alias) := do
  let start ← here
  if ← accept (.op .times) then return [⟨"*", none, ← spanFrom start⟩]
  else if ← accept (.op .leftParen) then
    let first ← importName name
    let names ← furtherItems (isNext (.op .rightParen)) (importName name) first
    expect (.op .rightParen)
    return names
  else separated (importName name)

def importFrom (start : Pos) : Rule Stmt := do
  expect (.word .fromKw)
  let level ← importLevel
  let module ← when? (return !(← isNext (.word .importKw))) dottedName
  expect (.word .importKw)
  let names ← importNames
  return .importFrom module names level (← spanFrom start)

/-- The right side of an assignment. -/
def assignedValue (k : Knot) : Rule Expr := do
  if ← isNext (.word .yieldKw) then yieldExpression k else expressions k

/-- One more equals sign: what was read as the value is a target too. -/
def furtherTarget (k : Knot) (read : List Expr × Expr) : Rule (Option (List Expr × Expr)) := do
  if ← accept (.op .assign) then
    let target ← lift (read.2.toTarget .store)
    let value ← assignedValue k
    return some (target :: read.1, value)
  else return none

/-- A value by itself, or an assignment to it. -/
def expressionStatement (k : Knot) (start : Pos) : Rule Stmt := do
  let first ← expressions k
  match ← look with
  | .op .assign =>
    let (targets, value) ← loop (furtherTarget k) ([], first)
    return .assign targets.reverse value (← spanFrom start)
  | .op .colon =>
    let _ ← take
    let target ← lift (first.toTarget .store)
    let hint ← k.expression
    let value ← when? (accept (.op .assign)) (assignedValue k)
    return .annAssign target hint value (← spanFrom start)
  | .op sign =>
    match BinaryOperator.ofAugmented? sign with
    | some op =>
      let _ ← take
      let target ← lift (first.toTarget .store)
      let value ← assignedValue k
      return .augAssign target op value (← spanFrom start)
    | none => return .expr first (← spanFrom start)
  | _ => return .expr first (← spanFrom start)

def deletedTarget (k : Knot) : Rule Expr := do
  let target ← k.operation .bitOr
  lift (target.toTarget .del)

/-- What follows the word `raise`. -/
def raised (k : Knot) : Rule (Option Expr × Option Expr) := do
  if ← isStatementEnd then return (none, none)
  else
    let value ← k.expression
    let cause ← when? (accept (.word .fromKw)) k.expression
    return (some value, cause)

/-- One statement of a line. -/
def smallStatement (k : Knot) : Rule Stmt := do
  let start ← here
  match ← look with
  | .keyword .passKw =>
    let _ ← take
    return .pass (← spanFrom start)
  | .keyword .breakKw =>
    let _ ← take
    return .breakStmt (← spanFrom start)
  | .keyword .continueKw =>
    let _ ← take
    return .continueStmt (← spanFrom start)
  | .keyword .returnKw =>
    let _ ← take
    let value ← when? (return !(← isStatementEnd)) (expressions k)
    return .returnStmt value (← spanFrom start)
  | .keyword .delKw =>
    let _ ← take
    let targets ← furtherItems isStatementEnd (deletedTarget k) (← deletedTarget k)
    return .delete targets (← spanFrom start)
  | .keyword .globalKw =>
    let _ ← take
    let names ← separated name
    return .globalStmt names (← spanFrom start)
  | .keyword .nonlocalKw =>
    let _ ← take
    let names ← separated name
    return .nonlocalStmt names (← spanFrom start)
  | .keyword .assertKw =>
    let _ ← take
    let test ← k.expression
    let message ← when? (accept (.op .comma)) k.expression
    return .assertStmt test message (← spanFrom start)
  | .keyword .raiseKw =>
    let _ ← take
    let (value, cause) ← raised k
    return .raise value cause (← spanFrom start)
  | .keyword .importKw =>
    let _ ← take
    let names ← separated (importName dottedName)
    return .importStmt names (← spanFrom start)
  | .keyword .fromKw => importFrom start
  | _ => expressionStatement k start

/-- One more statement of a line, after a semicolon. -/
def furtherStatement (k : Knot) : Rule (Option Stmt) := do
  if ← accept (.op .semicolon) then
    match ← look with
    | .newline | .eof => return none
    | _ => some <$> smallStatement k
  else return none

/-- The statements of a line. -/
def simpleStatements (k : Knot) : Rule (List Stmt) := do
  let first ← smallStatement k
  let rest ← many (furtherStatement k)
  lineEnd
  return first :: rest

end ScoreScript.Script.Grammar
