import ScoreScript.Script.Grammar.Basic

/-!
What stands in the brackets after a callee or an owner, and between the brackets of a
definition: arguments, indices, parameters.
-/

namespace ScoreScript.Script

/-- Arguments of a call, with and without names, last first. -/
structure Arguments where
  positional : List Expr
  keywords : List KeywordArg

namespace Arguments

def empty : Arguments := ⟨[], []⟩

def addPositional (args : Arguments) (value : Expr) : Arguments :=
  { args with positional := value :: args.positional }

def addKeyword (args : Arguments) (arg : KeywordArg) : Arguments :=
  { args with keywords := arg :: args.keywords }

/-- Whether there is an argument of this name. -/
def names (args : Arguments) (name : String) : Bool :=
  args.keywords.any (·.name == some name)

end Arguments

/-- An entry of a list of parameters. A bare `/` means nothing; a star without a name only
makes the parameters after it pass by name. -/
inductive ParamEntry where
  | slash
  | star (rest : Option Param)
  | doubleStar (names : Param)
  | plain (param : Param)

namespace ParamEntry

/-- Sort entries into kinds; the flag tells whether a star has been passed. -/
def sort (nameOnly : Bool) : List ParamEntry → Parameters
  | [] => .empty
  | entry :: rest =>
    match entry, nameOnly with
    | slash, _ => sort nameOnly rest
    | star vararg, _ =>
      match sort true rest with
      | .mk args later byName kwarg => .mk args (later.or vararg) byName kwarg
    | doubleStar names, _ =>
      match sort nameOnly rest with
      | .mk args vararg byName later => .mk args vararg byName (later.or (some names))
    | plain param, false =>
      match sort nameOnly rest with
      | .mk args vararg byName kwarg => .mk (param :: args) vararg byName kwarg
    | plain param, true =>
      match sort nameOnly rest with
      | .mk args vararg byName kwarg => .mk args vararg (param :: byName) kwarg

end ParamEntry

namespace Grammar
open Rule

/-- Whether a name and an equals sign come next. -/
def isKeywordNext : Rule Bool := do
  match ← look, ← lookAhead with
  | .name _, .op .assign => return true
  | _, _ => return false

/-- An argument without a name, perhaps a comprehension without brackets of its own. -/
def positionalArgument (k : Knot) (start : Pos) : Rule Expr := do
  let value ← namedExpression k
  if ← isNext (.word .forKw) then
    let generators ← comprehensions k
    return .generator value generators (← spanFrom start)
  else return value

/-- One more argument of a call. A name is given once, and what has no name comes before what
has one. -/
def argument (k : Knot) (read : Arguments) : Rule Arguments := do
  let start ← here
  if ← accept (.op .power) then
    let value ← k.expression
    return read.addKeyword (.mk none value (← spanFrom start))
  else if ← accept (.op .times) then
    let value ← k.expression
    return read.addPositional (.starred value .load (← spanFrom start))
  else if ← isKeywordNext then
    let name ← Rule.name
    let _ ← take
    let value ← k.expression
    let span ← spanFrom start
    if read.names name then fail (.repeatedKeyword name) span
    else return read.addKeyword (.mk (some name) value span)
  else
    let value ← positionalArgument k start
    if read.keywords.isEmpty then return read.addPositional value
    else fail .positionalAfterKeyword value.span

/-- The arguments of a call and its closing bracket. -/
def arguments (k : Knot) : Rule (List Expr × List KeywordArg) := do
  let args ← addItems (isNext (.op .rightParen)) (argument k) .empty
  expect (.op .rightParen)
  return (args.positional.reverse, args.keywords.reverse)

/-- A bound of a slice, which may be left out. -/
def sliceBound (k : Knot) : Rule (Option Expr) := do
  match ← look with
  | .op .colon | .op .comma | .op .rightBracket => return none
  | _ => some <$> k.expression

/-- A slice from its first colon on. -/
def sliceFrom (k : Knot) (start : Pos) (lower : Option Expr) : Rule Expr := do
  expect (.op .colon)
  let upper ← sliceBound k
  let step ← if ← accept (.op .colon) then sliceBound k else pure none
  return .slice lower upper step (← spanFrom start)

/-- An index, or a slice if there is a colon. -/
def slice (k : Knot) : Rule Expr := do
  let start ← here
  if ← isNext (.op .colon) then sliceFrom k start none
  else
    let index ← starredExpression k
    if ← isNext (.op .colon) then sliceFrom k start (some index) else return index

def slices (k : Knot) : Rule Expr :=
  tupleOr (isNext (.op .rightBracket)) (slice k)

/-- A parameter without its default. -/
def param (k : Knot) (annotated : Bool) : Rule Param := do
  let start ← here
  let name ← Rule.name
  let hint ← if annotated then when? (accept (.op .colon)) k.expression else pure none
  return .mk name hint none (← spanFrom start)

def paramEntry (k : Knot) (annotated : Bool) (closing : Mark) : Rule ParamEntry := do
  if ← accept (.op .divide) then return .slash
  else if ← accept (.op .power) then return .doubleStar (← param k annotated)
  else if ← accept (.op .times) then
    if ← isNext (.op .comma) then return .star none
    else if ← isNext closing then return .star none
    else return .star (some (← param k annotated))
  else
    match ← param k annotated with
    | .mk name hint _ span =>
      let default ← when? (accept (.op .assign)) k.expression
      return .plain (.mk name hint default span)

/-- Parameters up to the mark that ends them, which is left. -/
def parameters (k : Knot) (annotated : Bool) (closing : Mark) : Rule Parameters := do
  let entries ← items (isNext closing) (paramEntry k annotated closing)
  return ParamEntry.sort false entries

end Grammar

end ScoreScript.Script
