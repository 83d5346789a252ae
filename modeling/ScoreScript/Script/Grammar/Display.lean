import ScoreScript.Script.Grammar.Basic

/-!
What stands between brackets on its own: groups, tuples, lists, sets, dictionaries, and the
comprehensions of each. The opening bracket has been read, at `start`.
-/

namespace ScoreScript.Script.Grammar
open Rule

/-- The items after the first one, and the bracket that closes them. -/
def displayItems (k : Knot) (first : Expr) (closing : Mark) : Rule (List Expr) := do
  let items ← furtherItems (isNext closing) (starredExpression k) first
  expect closing
  return items

/-- The clauses of a comprehension and the bracket that closes it. -/
def displayClauses (k : Knot) (closing : Mark) : Rule (List Comprehension) := do
  let generators ← comprehensions k
  expect closing
  return generators

/-- Round brackets: an empty tuple, a group, a tuple or a generator. -/
def parenthesized (k : Knot) (start : Pos) : Rule Expr := do
  let closing : Mark := .op .rightParen
  if ← accept closing then return .tuple [] .load (← spanFrom start)
  else if ← isNext (.word .yieldKw) then
    let value ← yieldExpression k
    expect closing
    return value
  else
    let first ← if ← isNext (.op .times) then starredOperand k else namedExpression k
    if ← isNext (.word .forKw) then
      let generators ← displayClauses k closing
      return .generator first generators (← spanFrom start)
    else if ← accept closing then return first
    else
      let items ← displayItems k first closing
      return .tuple items .load (← spanFrom start)

/-- Square brackets: a list. -/
def listDisplay (k : Knot) (start : Pos) : Rule Expr := do
  let closing : Mark := .op .rightBracket
  if ← accept closing then return .list [] .load (← spanFrom start)
  else
    let first ← starredExpression k
    if ← isNext (.word .forKw) then
      let generators ← displayClauses k closing
      return .listComp first generators (← spanFrom start)
    else
      let items ← displayItems k first closing
      return .list items .load (← spanFrom start)

def dictEntry (k : Knot) : Rule DictEntry := do
  if ← accept (.op .power) then return .unpack (← k.operation .bitOr)
  else
    let key ← k.expression
    expect (.op .colon)
    return .pair key (← k.expression)

/-- A dictionary of which the first entry has been read. -/
def dictFrom (k : Knot) (start : Pos) (first : DictEntry) : Rule Expr := do
  let closing : Mark := .op .rightBrace
  let entries ← furtherItems (isNext closing) (dictEntry k) first
  expect closing
  return .dict entries (← spanFrom start)

/-- Braces: a dictionary, or a set. -/
def braceDisplay (k : Knot) (start : Pos) : Rule Expr := do
  let closing : Mark := .op .rightBrace
  if ← accept closing then return .dict [] (← spanFrom start)
  else if ← accept (.op .power) then
    dictFrom k start (.unpack (← k.operation .bitOr))
  else
    let first ← starredExpression k
    if ← accept (.op .colon) then
      let value ← k.expression
      if ← isNext (.word .forKw) then
        let generators ← displayClauses k closing
        return .dictComp first value generators (← spanFrom start)
      else dictFrom k start (.pair first value)
    else if ← isNext (.word .forKw) then
      let generators ← displayClauses k closing
      return .setComp first generators (← spanFrom start)
    else
      let items ← displayItems k first closing
      return .set items (← spanFrom start)

end ScoreScript.Script.Grammar
