import ScoreScript.Proofs.Parallel.Expression
import ScoreScript.Script.Grammar.Statement

/-!
The rules for statements and for whole scripts, put together side by side.
-/

namespace ScoreScript.Script

open Rule

/-- The rules that a block may come back to are parallel. -/
structure Blocks.Parallel (Given : (α : Type) → Rule α → Rule α → Prop) (b b' : Blocks) :
    Prop where
  statement : Rule.Parallel Given b.statement b'.statement
  branch : Rule.Parallel Given b.branch b'.branch

namespace Grammar

variable {Given : (α : Type) → Rule α → Rule α → Prop} {k k' : Knot} {b b' : Blocks}

/-! ### Statements that fit on a line -/

theorem isStatementEnd_parallel : Rule.Parallel Given isStatementEnd isStatementEnd := by
  refine .bind .look fun kind => ?_
  split <;> exact .pure

theorem lineEnd_parallel : Rule.Parallel Given lineEnd lineEnd := by
  refine .bind .look fun kind => ?_
  split
  · exact .bind .take fun _ => .pure
  · exact .pure
  · exact .unexpected

theorem dottedName_parallel : Rule.Parallel Given dottedName dottedName :=
  .bind .name fun _ => (Parallel.many (.when? .accept .name)).bind fun _ => .pure

theorem importName_parallel {path : Rule String} (h : Rule.Parallel Given path path) :
    Rule.Parallel Given (importName path) (importName path) :=
  .bind .here fun _ => h.bind fun _ => (Parallel.when? .accept .name).bind fun _ =>
    .bind .spanFrom fun _ => .pure

theorem importLevel_parallel : Rule.Parallel Given importLevel importLevel :=
  (Parallel.many (.bind .accept fun _ => .ite .pure
    (.bind .accept fun _ => .ite .pure .pure))).bind fun _ => .pure

theorem importNames_parallel : Rule.Parallel Given importNames importNames := by
  refine .bind .here fun _ => .bind .accept fun _ => .ite (.bind .spanFrom fun _ => .pure)
    (.bind .accept fun _ => .ite ?_ (.separated (importName_parallel .name)))
  exact (importName_parallel .name).bind fun _ =>
    (Parallel.furtherItems .isNext (importName_parallel .name)).bind fun _ =>
      .bind .expect fun _ => .pure

theorem importFrom_parallel {start : Pos} :
    Rule.Parallel Given (importFrom start) (importFrom start) := by
  have present : Rule.Parallel Given (return !(← isNext (.word .importKw)))
      (return !(← isNext (.word .importKw))) :=
    .bind .isNext fun _ => .pure
  exact .bind .expect fun _ => importLevel_parallel.bind fun _ =>
    (Parallel.when? present dottedName_parallel).bind fun _ => .bind .expect fun _ =>
      importNames_parallel.bind fun _ => .bind .spanFrom fun _ => .pure

section

variable (h : Knot.Parallel Given k k')
include h

theorem assignedValue_parallel : Rule.Parallel Given (assignedValue k) (assignedValue k') :=
  .bind .isNext fun _ => .ite (yieldExpression_parallel h) (expressions_parallel h)

theorem furtherTarget_parallel {read : List Expr × Expr} :
    Rule.Parallel Given (furtherTarget k read) (furtherTarget k' read) :=
  .bind .accept fun _ => .ite
    (.bind .lift fun _ => (assignedValue_parallel h).bind fun _ => .pure) .pure

theorem expressionStatement_parallel {start : Pos} :
    Rule.Parallel Given (expressionStatement k start) (expressionStatement k' start) := by
  refine (expressions_parallel h).bind fun first => .bind .look fun kind => ?_
  split
  · exact (Parallel.loop fun _ => furtherTarget_parallel h).bind fun _ =>
      .bind .spanFrom fun _ => .pure
  · exact .bind .take fun _ => .bind .lift fun _ => h.expression.bind fun _ =>
      (Parallel.when? .accept (assignedValue_parallel h)).bind fun _ =>
        .bind .spanFrom fun _ => .pure
  · split
    · exact .bind .take fun _ => .bind .lift fun _ => (assignedValue_parallel h).bind fun _ =>
        .bind .spanFrom fun _ => .pure
    · exact .bind .spanFrom fun _ => .pure
  · exact .bind .spanFrom fun _ => .pure

theorem deletedTarget_parallel : Rule.Parallel Given (deletedTarget k) (deletedTarget k') :=
  (h.operation _).bind fun _ => .lift

theorem raised_parallel : Rule.Parallel Given (raised k) (raised k') :=
  isStatementEnd_parallel.bind fun _ => .ite .pure
    (h.expression.bind fun _ => (Parallel.when? .accept h.expression).bind fun _ => .pure)

theorem smallStatement_parallel : Rule.Parallel Given (smallStatement k) (smallStatement k') := by
  refine .bind .here fun start => .bind .look fun kind => ?_
  split
  iterate 3 exact .bind .take fun _ => .bind .spanFrom fun _ => .pure
  · have present : Rule.Parallel Given (return !(← isStatementEnd))
        (return !(← isStatementEnd)) :=
      isStatementEnd_parallel.bind fun _ => .pure
    exact .bind .take fun _ => (Parallel.when? present (expressions_parallel h)).bind fun _ =>
      .bind .spanFrom fun _ => .pure
  · exact .bind .take fun _ => (deletedTarget_parallel h).bind fun _ =>
      (Parallel.furtherItems isStatementEnd_parallel (deletedTarget_parallel h)).bind fun _ =>
        .bind .spanFrom fun _ => .pure
  iterate 2
    exact .bind .take fun _ => (Parallel.separated .name).bind fun _ =>
      .bind .spanFrom fun _ => .pure
  · exact .bind .take fun _ => h.expression.bind fun _ =>
      (Parallel.when? .accept h.expression).bind fun _ => .bind .spanFrom fun _ => .pure
  · exact .bind .take fun _ => (raised_parallel h).bind fun _ => .bind .spanFrom fun _ => .pure
  · exact .bind .take fun _ => (Parallel.separated (importName_parallel dottedName_parallel)).bind
      fun _ => .bind .spanFrom fun _ => .pure
  · exact importFrom_parallel
  · exact expressionStatement_parallel h

theorem furtherStatement_parallel :
    Rule.Parallel Given (furtherStatement k) (furtherStatement k') := by
  refine .bind .accept fun _ => .ite (.bind .look fun kind => ?_) .pure
  split
  iterate 2 exact .pure
  exact .map (smallStatement_parallel h)

theorem simpleStatements_parallel :
    Rule.Parallel Given (simpleStatements k) (simpleStatements k') :=
  (smallStatement_parallel h).bind fun _ =>
    (Parallel.many (furtherStatement_parallel h)).bind fun _ => lineEnd_parallel.bind fun _ => .pure

/-! ### Statements with blocks -/

omit h in
theorem blockLine_parallel (blocks : Blocks.Parallel Given b b') :
    Rule.Parallel Given (blockLine b) (blockLine b') := by
  refine .bind .look fun kind => ?_
  split
  · exact .bind .take fun _ => .pure
  · exact .pure
  · exact .bind .take fun _ => .pure
  · exact .map blocks.statement

omit h in
theorem indentedBlock_parallel (blocks : Blocks.Parallel Given b b') :
    Rule.Parallel Given (indentedBlock b) (indentedBlock b') := by
  refine .bind .look fun kind => ?_
  split
  · exact .bind .take fun _ => (Parallel.many (blockLine_parallel blocks)).bind fun _ => .pure
  · exact .unexpected

variable (blocks : Blocks.Parallel Given b b')
include blocks

theorem block_parallel : Rule.Parallel Given (block b k) (block b' k') := by
  refine .bind .expect fun _ => .nested (.bind .look fun kind => ?_)
  split
  · exact .bind .take fun _ => indentedBlock_parallel blocks
  · exact simpleStatements_parallel h

theorem optionalBlock_parallel {word : Keyword} :
    Rule.Parallel Given (optionalBlock b k word) (optionalBlock b' k' word) :=
  .bind .accept fun _ => .ite (block_parallel h blocks) .pure

theorem otherwise_parallel : Rule.Parallel Given (otherwise b k) (otherwise b' k') :=
  .bind .isNext fun _ => .ite (blocks.branch.bind fun _ => .pure) (optionalBlock_parallel h blocks)

theorem ifStatement_parallel : Rule.Parallel Given (ifStatement b k) (ifStatement b' k') :=
  .bind .here fun _ => .bind .take fun _ => (namedExpression_parallel h).bind fun _ =>
    (block_parallel h blocks).bind fun _ => (otherwise_parallel h blocks).bind fun _ =>
      .bind .spanFrom fun _ => .pure

theorem whileStatement_parallel : Rule.Parallel Given (whileStatement b k) (whileStatement b' k') :=
  .bind .here fun _ => .bind .expect fun _ => (namedExpression_parallel h).bind fun _ =>
    (block_parallel h blocks).bind fun _ => (optionalBlock_parallel h blocks).bind fun _ =>
      .bind .spanFrom fun _ => .pure

theorem forStatement_parallel : Rule.Parallel Given (forStatement b k) (forStatement b' k') :=
  .bind .here fun _ => .bind .expect fun _ => (loopTarget_parallel h).bind fun _ =>
    .bind .expect fun _ => (expressions_parallel h).bind fun _ =>
      (block_parallel h blocks).bind fun _ => (optionalBlock_parallel h blocks).bind fun _ =>
        .bind .spanFrom fun _ => .pure

omit blocks in
theorem itemTarget_parallel : Rule.Parallel Given (itemTarget k) (itemTarget k') :=
  (starredOperand_parallel h).bind fun _ => .lift

omit blocks in
theorem withItem_parallel : Rule.Parallel Given (withItem k) (withItem k') :=
  .bind .here fun _ => h.expression.bind fun _ =>
    (Parallel.when? .accept (itemTarget_parallel h)).bind fun _ => .bind .spanFrom fun _ => .pure

theorem withStatement_parallel : Rule.Parallel Given (withStatement b k) (withStatement b' k') :=
  .bind .here fun _ => .bind .expect fun _ => (Parallel.separated (withItem_parallel h)).bind fun _ =>
    (block_parallel h blocks).bind fun _ => .bind .spanFrom fun _ => .pure

theorem functionDef_parallel {decorators : List Expr} :
    Rule.Parallel Given (functionDef b k decorators) (functionDef b' k' decorators) :=
  .bind .here fun _ => .bind .expect fun _ => .bind .name fun _ => .bind .expect fun _ =>
    (parameters_parallel h).bind fun _ => .bind .expect fun _ =>
      (Parallel.when? .accept h.expression).bind fun _ => (block_parallel h blocks).bind fun _ =>
        .bind .spanFrom fun _ => .pure

theorem classDef_parallel {decorators : List Expr} :
    Rule.Parallel Given (classDef b k decorators) (classDef b' k' decorators) := by
  refine .bind .here fun _ => .bind .expect fun _ => .bind .name fun _ => .bind .accept fun _ =>
    .ite ((arguments_parallel h).bind ?rest) (Parallel.pure.bind ?rest)
  exact fun _ => (block_parallel h blocks).bind fun _ => .bind .spanFrom fun _ => .pure

omit blocks in
theorem decorator_parallel : Rule.Parallel Given (decorator k) (decorator k') :=
  (namedExpression_parallel h).bind fun _ => lineEnd_parallel.bind fun _ => .pure

theorem decorated_parallel : Rule.Parallel Given (decorated b k) (decorated b' k') := by
  refine (Parallel.many (.when? .accept (decorator_parallel h))).bind fun _ =>
    .bind .look fun kind => ?_
  split
  · exact functionDef_parallel h blocks
  · exact classDef_parallel h blocks
  · exact .unexpected

omit blocks in
theorem handled_parallel : Rule.Parallel Given (handled k) (handled k') :=
  .bind .isNext fun _ => .ite .pure
    (h.expression.bind fun _ => (Parallel.when? .accept .name).bind fun _ => .pure)

theorem exceptHandler_parallel : Rule.Parallel Given (exceptHandler b k) (exceptHandler b' k') :=
  .bind .here fun _ => .bind .expect fun _ => (handled_parallel h).bind fun _ =>
    (block_parallel h blocks).bind fun _ => .bind .spanFrom fun _ => .pure

theorem tryStatement_parallel : Rule.Parallel Given (tryStatement b k) (tryStatement b' k') :=
  .bind .here fun _ => .bind .expect fun _ => (block_parallel h blocks).bind fun _ =>
    (Parallel.many (.when? .isNext (exceptHandler_parallel h blocks))).bind fun _ =>
      (optionalBlock_parallel h blocks).bind fun _ => (optionalBlock_parallel h blocks).bind fun _ =>
        .ite .unexpected (.bind .spanFrom fun _ => .pure)

theorem statement_parallel : Rule.Parallel Given (statement b k) (statement b' k') := by
  refine .bind .look fun kind => ?_
  split
  · exact (ifStatement_parallel h blocks).bind fun _ => .pure
  · exact (whileStatement_parallel h blocks).bind fun _ => .pure
  · exact (forStatement_parallel h blocks).bind fun _ => .pure
  · exact (withStatement_parallel h blocks).bind fun _ => .pure
  · exact (functionDef_parallel h blocks).bind fun _ => .pure
  · exact (classDef_parallel h blocks).bind fun _ => .pure
  · exact (tryStatement_parallel h blocks).bind fun _ => .pure
  · exact (decorated_parallel h blocks).bind fun _ => .pure
  · exact simpleStatements_parallel h

end

/-! ### Whole scripts -/

/-- However much room there is, statements come back to statements that are parallel. -/
theorem within_parallel (h : Knot.Parallel Given k k') (size : Nat) :
    Blocks.Parallel Given ⟨statementWithin k size, branchWithin k size⟩
      ⟨statementWithin k' size, branchWithin k' size⟩ := by
  induction size with
  | zero =>
    refine ⟨?_, ?_⟩
    · simp only [statementWithin]
      exact .unexpected
    · simp only [branchWithin]
      exact .unexpected
  | succ size ih =>
    refine ⟨?_, ?_⟩
    · simp only [statementWithin]
      exact statement_parallel h ih
    · simp only [branchWithin]
      exact ifStatement_parallel h ih

theorem scriptLine_parallel (h : Knot.Parallel Given k k') {size : Nat} :
    Rule.Parallel Given (scriptLine k size) (scriptLine k' size) := by
  refine .bind .look fun kind => ?_
  split
  · exact .pure
  · exact .bind .take fun _ => .pure
  · exact .map (within_parallel h (size + 1)).statement

theorem script_parallel (h : Knot.Parallel Given k k') {size : Nat} :
    Rule.Parallel Given (script k size) (script k' size) :=
  (Parallel.many (scriptLine_parallel h)).bind fun _ => .pure

end Grammar

end ScoreScript.Script
