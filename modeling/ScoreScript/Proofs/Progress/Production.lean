import ScoreScript.Proofs.Progress.Bottom

/-!
The rules of the grammar (`Production`): those for single tokens, and one constructor for each rule
that an expression, a statement or a script is read by, with the rules that it comes back to as
parameters. None of them gives a token back (`Production.forward`).
-/

namespace ScoreScript.Script

open Rule

namespace Grammar

/-- The rules of the grammar, for blocks and expressions that come back to `b` and `k`. -/
inductive Production (b : Blocks) (k : Knot) : {α : Type} → Rule α → Prop where
  -- Single tokens.
  | look : Production b k look
  | lookAhead : Production b k lookAhead
  | here : Production b k here
  | spanFrom {start : Pos} : Production b k (spanFrom start)
  | take : Production b k take
  | isNext {mark : Mark} : Production b k (isNext mark)
  | accept {mark : Mark} : Production b k (accept mark)
  | expect {mark : Mark} : Production b k (expect mark)
  | name : Production b k name
  -- String literals.
  | holeValue {source : String} {span : Span} : Production b k (holeValue k source span)
  | formatPiece {span : Span} {piece : FormatPiece} : Production b k (formatPiece k span piece)
  | formatPieces {span : Span} {pieces : List FormatPiece} :
    Production b k (formatPieces k span pieces)
  | joinPieces {span : Span} {j : Joining} {pieces : List FormatPiece} :
    Production b k (joinPieces k span j pieces)
  | joinLiteral {j : Joining} {value : String} {kind : StringKind} {span : Span} :
    Production b k (joinLiteral k j value kind span)
  | strings : Production b k (strings k)
  -- Expressions.
  | isExpressionEnd : Production b k isExpressionEnd
  | starredOperand : Production b k (starredOperand k)
  | starredExpression : Production b k (starredExpression k)
  | expressions : Production b k (expressions k)
  | namedExpression : Production b k (namedExpression k)
  | loopTarget : Production b k (loopTarget k)
  | comprehension : Production b k (comprehension k)
  | comprehensions : Production b k (comprehensions k)
  | yieldExpression : Production b k (yieldExpression k)
  | displayItems {first : Expr} {closing : Mark} : Production b k (displayItems k first closing)
  | displayClauses {closing : Mark} : Production b k (displayClauses k closing)
  | parenthesized {start : Pos} : Production b k (parenthesized k start)
  | listDisplay {start : Pos} : Production b k (listDisplay k start)
  | dictEntry : Production b k (dictEntry k)
  | dictFrom {start : Pos} {first : DictEntry} : Production b k (dictFrom k start first)
  | braceDisplay {start : Pos} : Production b k (braceDisplay k start)
  | isKeywordNext : Production b k isKeywordNext
  | positionalArgument {start : Pos} : Production b k (positionalArgument k start)
  | argument {read : Arguments} : Production b k (argument k read)
  | arguments : Production b k (arguments k)
  | sliceBound : Production b k (sliceBound k)
  | sliceFrom {start : Pos} {lower : Option Expr} : Production b k (sliceFrom k start lower)
  | slice : Production b k (slice k)
  | slices : Production b k (slices k)
  | param {annotated : Bool} : Production b k (param k annotated)
  | paramEntry {annotated : Bool} {closing : Mark} : Production b k (paramEntry k annotated closing)
  | parameters {annotated : Bool} {closing : Mark} : Production b k (parameters k annotated closing)
  | atom : Production b k (atom k)
  | postfixed {start : Pos} {owner : Expr} : Production b k (postfixed k start owner)
  | primary : Production b k (primary k)
  | power : Production b k (power k)
  | factor : Production b k (factor k)
  | firstOperand {min : Level} : Production b k (firstOperand k min)
  | comparison : Production b k (comparison k)
  | extend {min : Level} {start : Pos} {left : Expr} : Production b k (extend k min start left)
  | operation {min : Level} : Production b k (operation k min)
  | lambda : Production b k (lambda k)
  | expression : Production b k (expression k)
  -- Statements that fit on a line.
  | isStatementEnd : Production b k isStatementEnd
  | lineEnd : Production b k lineEnd
  | dottedName : Production b k dottedName
  | importName : Production b k (importName Rule.name)
  | importModule : Production b k (importName Grammar.dottedName)
  | importLevel : Production b k importLevel
  | importNames : Production b k importNames
  | importFrom {start : Pos} : Production b k (importFrom start)
  | assignedValue : Production b k (assignedValue k)
  | furtherTarget {read : List Expr × Expr} : Production b k (furtherTarget k read)
  | expressionStatement {start : Pos} : Production b k (expressionStatement k start)
  | deletedTarget : Production b k (deletedTarget k)
  | raised : Production b k (raised k)
  | smallStatement : Production b k (smallStatement k)
  | furtherStatement : Production b k (furtherStatement k)
  | simpleStatements : Production b k (simpleStatements k)
  -- Statements that hold others.
  | blockLine : Production b k (blockLine b)
  | indentedBlock : Production b k (indentedBlock b)
  | block : Production b k (block b k)
  | optionalBlock {word : Keyword} : Production b k (optionalBlock b k word)
  | otherwise : Production b k (otherwise b k)
  | ifStatement : Production b k (ifStatement b k)
  | whileStatement : Production b k (whileStatement b k)
  | forStatement : Production b k (forStatement b k)
  | itemTarget : Production b k (itemTarget k)
  | withItem : Production b k (withItem k)
  | withStatement : Production b k (withStatement b k)
  | functionDef {decorators : List Expr} : Production b k (functionDef b k decorators)
  | classDef {decorators : List Expr} : Production b k (classDef b k decorators)
  | decorator : Production b k (decorator k)
  | decorated : Production b k (decorated b k)
  | handled : Production b k (handled k)
  | exceptHandler : Production b k (exceptHandler b k)
  | tryStatement : Production b k (tryStatement b k)
  | statement : Production b k (statement b k)
  | scriptLine {size : Nat} : Production b k (scriptLine k size)
  | script {size : Nat} : Production b k (script k size)

section

variable {k : Knot} {b : Blocks} (h : Knot.Parallel (fun _ rule _ => Forward rule) k k)
  (blocks : Blocks.Parallel (fun _ rule _ => Forward rule) b b)
include h blocks

/-- No rule gives a token back if those that it comes back to give none back. -/
theorem Production.forward {α : Type} {rule : Rule α} (production : Production b k rule) :
    Forward rule := by
  have value (source : String) (span : Span) : Rule.Parallel (fun _ rule _ => Forward rule)
      (Grammar.holeValue k source span) (Grammar.holeValue k source span) :=
    .given (holeValue_forward k source span)
  cases production with
  | look => exact .of_self .look
  | lookAhead => exact .of_self .lookAhead
  | here => exact .of_self .here
  | spanFrom => exact .of_self .spanFrom
  | take => exact .of_self .take
  | isNext => exact .of_self .isNext
  | accept => exact .of_self .accept
  | expect => exact .of_self .expect
  | name => exact .of_self .name
  | holeValue => exact .of_self (value _ _)
  | formatPiece => exact .of_self (formatPiece_parallel value _)
  | formatPieces => exact .of_self (formatPieces_parallel value _)
  | joinPieces => exact .of_self (joinPieces_parallel value)
  | joinLiteral => exact .of_self (joinLiteral_parallel value)
  | strings => exact .of_self h.strings
  | isExpressionEnd => exact .of_self isExpressionEnd_parallel
  | starredOperand => exact .of_self (starredOperand_parallel h)
  | starredExpression => exact .of_self (starredExpression_parallel h)
  | expressions => exact .of_self (expressions_parallel h)
  | namedExpression => exact .of_self (namedExpression_parallel h)
  | loopTarget => exact .of_self (loopTarget_parallel h)
  | comprehension => exact .of_self (comprehension_parallel h)
  | comprehensions => exact .of_self (comprehensions_parallel h)
  | yieldExpression => exact .of_self (yieldExpression_parallel h)
  | displayItems => exact .of_self (displayItems_parallel h)
  | displayClauses => exact .of_self (displayClauses_parallel h)
  | parenthesized => exact .of_self (parenthesized_parallel h)
  | listDisplay => exact .of_self (listDisplay_parallel h)
  | dictEntry => exact .of_self (dictEntry_parallel h)
  | dictFrom => exact .of_self (dictFrom_parallel h)
  | braceDisplay => exact .of_self (braceDisplay_parallel h)
  | isKeywordNext => exact .of_self isKeywordNext_parallel
  | positionalArgument => exact .of_self (positionalArgument_parallel h)
  | argument => exact .of_self (argument_parallel h)
  | arguments => exact .of_self (arguments_parallel h)
  | sliceBound => exact .of_self (sliceBound_parallel h)
  | sliceFrom => exact .of_self (sliceFrom_parallel h)
  | slice => exact .of_self (slice_parallel h)
  | slices => exact .of_self (slices_parallel h)
  | param => exact .of_self (param_parallel h)
  | paramEntry => exact .of_self (paramEntry_parallel h)
  | parameters => exact .of_self (parameters_parallel h)
  | atom => exact .of_self (atom_parallel h)
  | postfixed => exact .of_self (postfixed_parallel h)
  | primary => exact .of_self (primary_parallel h)
  | power => exact .of_self (power_parallel h)
  | factor => exact .of_self (factor_parallel h)
  | firstOperand => exact .of_self (firstOperand_parallel h)
  | comparison => exact .of_self (comparison_parallel h)
  | extend => exact .of_self (extend_parallel h)
  | operation => exact .of_self (operation_parallel h)
  | lambda => exact .of_self (lambda_parallel h)
  | expression => exact .of_self (expression_parallel h)
  | isStatementEnd => exact .of_self isStatementEnd_parallel
  | lineEnd => exact .of_self lineEnd_parallel
  | dottedName => exact .of_self dottedName_parallel
  | importName => exact .of_self (importName_parallel .name)
  | importModule => exact .of_self (importName_parallel dottedName_parallel)
  | importLevel => exact .of_self importLevel_parallel
  | importNames => exact .of_self importNames_parallel
  | importFrom => exact .of_self importFrom_parallel
  | assignedValue => exact .of_self (assignedValue_parallel h)
  | furtherTarget => exact .of_self (furtherTarget_parallel h)
  | expressionStatement => exact .of_self (expressionStatement_parallel h)
  | deletedTarget => exact .of_self (deletedTarget_parallel h)
  | raised => exact .of_self (raised_parallel h)
  | smallStatement => exact .of_self (smallStatement_parallel h)
  | furtherStatement => exact .of_self (furtherStatement_parallel h)
  | simpleStatements => exact .of_self (simpleStatements_parallel h)
  | blockLine => exact .of_self (blockLine_parallel blocks)
  | indentedBlock => exact .of_self (indentedBlock_parallel blocks)
  | block => exact .of_self (block_parallel h blocks)
  | optionalBlock => exact .of_self (optionalBlock_parallel h blocks)
  | otherwise => exact .of_self (otherwise_parallel h blocks)
  | ifStatement => exact .of_self (ifStatement_parallel h blocks)
  | whileStatement => exact .of_self (whileStatement_parallel h blocks)
  | forStatement => exact .of_self (forStatement_parallel h blocks)
  | itemTarget => exact .of_self (itemTarget_parallel h)
  | withItem => exact .of_self (withItem_parallel h)
  | withStatement => exact .of_self (withStatement_parallel h blocks)
  | functionDef => exact .of_self (functionDef_parallel h blocks)
  | classDef => exact .of_self (classDef_parallel h blocks)
  | decorator => exact .of_self (decorator_parallel h)
  | decorated => exact .of_self (decorated_parallel h blocks)
  | handled => exact .of_self (handled_parallel h)
  | exceptHandler => exact .of_self (exceptHandler_parallel h blocks)
  | tryStatement => exact .of_self (tryStatement_parallel h blocks)
  | statement => exact .of_self (statement_parallel h blocks)
  | scriptLine => exact .of_self (scriptLine_parallel h)
  | script => exact .of_self (script_parallel h)

end

end Grammar

end ScoreScript.Script
