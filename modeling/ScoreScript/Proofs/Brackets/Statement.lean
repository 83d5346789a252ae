import ScoreScript.Proofs.Brackets.Expression
import ScoreScript.Script.Grammar.Statement

/-!
The rules for statements, and the one for whole scripts, close the brackets that they open. Ends of
lines and blocks are told by tokens that are no brackets.
-/

namespace ScoreScript.Script

open Bracket Rule

/-- The rules that a block may come back to close the brackets that they open; the one for a
condition begins with a token that it does not look at. -/
structure Grammar.BlocksCloses (b : Blocks) : Prop where
  statement : Closes [] b.statement
  branch : ∀ s, pass [] s.current.kind = some [] → ClosesAt [] b.branch s

namespace Grammar

variable {k : Knot} {b : Blocks} {s : Stream}

/-! ### Statements that fit on a line -/

theorem name_closes : Closes [] name := by
  intro s n id t done
  obtain ⟨found, rfl⟩ := name_ok done
  exact closing_of_advance (by rw [found]; rfl) ⟨[], rfl, rfl⟩

theorem isStatementEnd_closes : Closes [] isStatementEnd := by
  refine .look fun s => ?_
  split <;> exact Closes.pure s

theorem lineEnd_closes : Closes [] lineEnd := by
  refine .look fun s => ?_
  split
  · rename_i found
    exact .takenKind found rfl fun _ => .pure
  · exact Closes.pure s
  · exact Closes.unexpected s

theorem dottedName_closes : Closes [] dottedName :=
  name_closes.skip fun _ => (Closes.many (.behind rfl name_closes)).skip fun _ => .pure

theorem importName_closes {path : Rule String} (h : Closes [] path) :
    Closes [] (importName path) :=
  .skip .here fun _ => h.skip fun _ => (Closes.behind rfl name_closes).skip fun _ =>
    .skip .spanFrom fun _ => .pure

theorem importLevel_closes : Closes [] importLevel := by
  refine (Closes.many (.accept rfl .pure ?_)).skip fun _ => .pure
  exact .accept rfl .pure .pure

theorem importNames_closes : Closes [] importNames := by
  have one : Closes [] (importName name) := importName_closes name_closes
  refine .skip .here fun _ => .accept rfl (.skip .spanFrom fun _ => .pure)
    (.accept rfl ?_ (.separated one))
  exact one.skip fun _ => .skip (.furtherItems .isNext one) fun _ => .expect rfl .pure

theorem importFrom_closes {start : Pos} : Closes [] (importFrom start) := by
  have present : Closes [] (return !(← isNext (.word .importKw))) := .skip .isNext fun _ => .pure
  exact .expect rfl (importLevel_closes.skip fun _ =>
    (Closes.when? present dottedName_closes).skip fun _ => .expect rfl
      (importNames_closes.skip fun _ => .skip .spanFrom fun _ => .pure))

section

variable (h : KnotCloses k)
include h

theorem assignedValue_closes : Closes [] (assignedValue k) :=
  .skip .isNext fun _ => .ite (yieldExpression_closes h) (expressions_closes h)

theorem furtherTarget_closes {read : List Expr × Expr} : Closes [] (furtherTarget k read) :=
  .accept rfl (.skip .lift fun _ => (assignedValue_closes h).skip fun _ => .pure) .pure

omit h in
theorem pass_augmented {sign : Operator} {op : BinaryOperator}
    (found : BinaryOperator.ofAugmented? sign = some op) : pass [] (.op sign) = some [] := by
  cases sign <;> first | rfl | cases found

theorem expressionStatement_closes {start : Pos} : Closes [] (expressionStatement k start) := by
  have alone {first : Expr} : Closes [] (do return Stmt.expr first (← spanFrom start)) :=
    .skip .spanFrom fun _ => .pure
  refine (expressions_closes h).skip fun first => .look fun s => ?_
  split
  · exact ((Closes.loop fun _ => furtherTarget_closes h).skip fun _ =>
      .skip .spanFrom fun _ => .pure) s
  · rename_i found
    exact .takenKind found rfl fun _ => .skip .lift fun _ => h.expression.skip fun _ =>
      (Closes.behind rfl (assignedValue_closes h)).skip fun _ => .skip .spanFrom fun _ => .pure
  · rename_i sign found
    split
    · rename_i op augmented
      exact .takenKind found (pass_augmented augmented) fun _ => .skip .lift fun _ =>
        (assignedValue_closes h).skip fun _ => .skip .spanFrom fun _ => .pure
    · exact alone s
  · exact alone s

theorem deletedTarget_closes : Closes [] (deletedTarget k) :=
  (h.operation _).skip fun _ => .lift

theorem raised_closes : Closes [] (raised k) :=
  isStatementEnd_closes.skip fun _ => .ite .pure (h.expression.skip fun _ =>
    (Closes.behind rfl h.expression).skip fun _ => .pure)

theorem smallStatement_closes : Closes [] (smallStatement k) := by
  refine .skip .here fun start => .look fun s => ?_
  split <;> rename_i found
  iterate 3 exact .takenKind found rfl fun _ => .skip .spanFrom fun _ => .pure
  · have present : Closes [] (return !(← isStatementEnd)) :=
      isStatementEnd_closes.skip fun _ => .pure
    exact .takenKind found rfl fun _ => (Closes.when? present (expressions_closes h)).skip fun _ =>
      .skip .spanFrom fun _ => .pure
  · exact .takenKind found rfl fun _ => (deletedTarget_closes h).skip fun _ =>
      (Closes.furtherItems isStatementEnd_closes (deletedTarget_closes h)).skip fun _ =>
        .skip .spanFrom fun _ => .pure
  iterate 2
    exact .takenKind found rfl fun _ => (Closes.separated name_closes).skip fun _ =>
      .skip .spanFrom fun _ => .pure
  · exact .takenKind found rfl fun _ => h.expression.skip fun _ =>
      (Closes.behind rfl h.expression).skip fun _ => .skip .spanFrom fun _ => .pure
  · exact .takenKind found rfl fun _ => (raised_closes h).skip fun _ =>
      .skip .spanFrom fun _ => .pure
  · exact .takenKind found rfl fun _ =>
      (Closes.separated (importName_closes dottedName_closes)).skip fun _ =>
        .skip .spanFrom fun _ => .pure
  · exact importFrom_closes s
  · exact expressionStatement_closes h s

theorem furtherStatement_closes : Closes [] (furtherStatement k) := by
  refine .accept rfl (.look fun s => ?_) .pure
  split
  iterate 2 exact Closes.pure s
  exact (smallStatement_closes h).map s

theorem simpleStatements_closes : Closes [] (simpleStatements k) :=
  (smallStatement_closes h).skip fun _ => (Closes.many (furtherStatement_closes h)).skip fun _ =>
    lineEnd_closes.skip fun _ => .pure

/-! ### Statements with blocks -/

omit h in
theorem blockLine_closes (blocks : BlocksCloses b) : Closes [] (blockLine b) := by
  refine .look fun s => ?_
  split
  · rename_i found
    exact .takenKind found rfl fun _ => .pure
  · exact Closes.pure s
  · rename_i found
    exact .takenKind found rfl fun _ => .pure
  · exact blocks.statement.map s

omit h in
theorem indentedBlock_closes (blocks : BlocksCloses b) : Closes [] (indentedBlock b) := by
  refine .look fun s => ?_
  split
  · rename_i found
    exact .takenKind found rfl fun _ => (Closes.many (blockLine_closes blocks)).skip fun _ => .pure
  · exact Closes.unexpected s

variable (blocks : BlocksCloses b)
include blocks

theorem block_closes : Closes [] (block b k) := by
  refine .expect rfl (.nested (.look fun s => ?_))
  split
  · rename_i found
    exact .takenKind found rfl fun _ => indentedBlock_closes blocks
  · exact simpleStatements_closes h s

theorem optionalBlock_closes (word : Keyword) : Closes [] (optionalBlock b k word) :=
  .accept rfl (block_closes h blocks) .pure

theorem otherwise_closes : Closes [] (otherwise b k) := by
  refine .ifNext (fun s found => ?_) (optionalBlock_closes h blocks _)
  exact (blocks.branch s (by rw [found]; rfl)).bind fun _ => .pure

theorem ifStatement_closes (plain : pass [] s.current.kind = some []) :
    ClosesAt [] (ifStatement b k) s := by
  have rest {start : Pos} : Closes [] (do
      let test ← namedExpression k
      let body ← block b k
      let other ← otherwise b k
      return Stmt.ifStmt test body other (← spanFrom start)) :=
    (namedExpression_closes h).skip fun _ => (block_closes h blocks).skip fun _ =>
      (otherwise_closes h blocks).skip fun _ => .skip .spanFrom fun _ => .pure
  exact .passed plain (fun _ => rfl) (rest _)

theorem whileStatement_closes : Closes [] (whileStatement b k) :=
  .skip .here fun _ => .expect rfl ((namedExpression_closes h).skip fun _ =>
    (block_closes h blocks).skip fun _ => (optionalBlock_closes h blocks _).skip fun _ =>
      .skip .spanFrom fun _ => .pure)

theorem forStatement_closes : Closes [] (forStatement b k) :=
  .skip .here fun _ => .expect rfl ((loopTarget_closes h).skip fun _ => .expect rfl
    ((expressions_closes h).skip fun _ => (block_closes h blocks).skip fun _ =>
      (optionalBlock_closes h blocks _).skip fun _ => .skip .spanFrom fun _ => .pure))

omit blocks in
theorem withItem_closes : Closes [] (withItem k) := by
  have target : Closes [] (itemTarget k) := (starredOperand_closes h).skip fun _ => .lift
  exact .skip .here fun _ => h.expression.skip fun _ => (Closes.behind rfl target).skip fun _ =>
    .skip .spanFrom fun _ => .pure

theorem withStatement_closes : Closes [] (withStatement b k) :=
  .skip .here fun _ => .expect rfl ((Closes.separated (withItem_closes h)).skip fun _ =>
    (block_closes h blocks).skip fun _ => .skip .spanFrom fun _ => .pure)

theorem functionDef_closes {decorators : List Expr} :
    Closes [] (functionDef b k decorators) := by
  refine .skip .here fun _ => .expect rfl (.name fun _ => .expect rfl ?_)
  refine .skip (parameters_closes h) fun _ => .expect rfl ?_
  exact (Closes.behind rfl h.expression).skip fun _ => (block_closes h blocks).skip fun _ =>
    .skip .spanFrom fun _ => .pure

theorem classDef_closes {decorators : List Expr} : Closes [] (classDef b k decorators) := by
  refine .skip .here fun _ => .expect rfl (.name fun _ => .accept rfl
    ((arguments_closes h).bind ?rest) (Closes.pure.skip ?rest))
  rintro ⟨bases, keywords⟩
  exact (block_closes h blocks).skip fun _ => .skip .spanFrom fun _ => .pure

theorem decorated_closes : Closes [] (decorated b k) := by
  have one : Closes [] (decorator k) :=
    (namedExpression_closes h).skip fun _ => lineEnd_closes.skip fun _ => .pure
  refine (Closes.many (.behind rfl one)).skip fun decorators => .look fun s => ?_
  split
  · exact functionDef_closes h blocks s
  · exact classDef_closes h blocks s
  · exact Closes.unexpected s

theorem exceptHandler_closes : Closes [] (exceptHandler b k) := by
  have handled : Closes [] (handled k) :=
    .skip .isNext fun _ => .ite .pure (h.expression.skip fun _ =>
      (Closes.behind rfl name_closes).skip fun _ => .pure)
  exact .skip .here fun _ => .expect rfl (handled.skip fun _ =>
    (block_closes h blocks).skip fun _ => .skip .spanFrom fun _ => .pure)

theorem tryStatement_closes : Closes [] (tryStatement b k) := by
  have optional := optionalBlock_closes h blocks
  refine .skip .here fun _ => .expect rfl ((block_closes h blocks).skip fun _ => ?_)
  refine (Closes.many (.when? .isNext (exceptHandler_closes h blocks))).skip fun _ => ?_
  exact (optional .elseKw).skip fun _ => (optional .finallyKw).skip fun _ =>
    .ite .unexpected (.skip .spanFrom fun _ => .pure)

theorem statement_closes : Closes [] (statement b k) := by
  have one {rule : Rule Stmt} {s : Stream} (h : ClosesAt [] rule s) :
      ClosesAt [] (do return [← rule]) s := h.bind fun _ => .pure
  refine .look fun s => ?_
  split
  · rename_i found
    exact one (ifStatement_closes h blocks (by rw [found]; rfl))
  · exact one (whileStatement_closes h blocks s)
  · exact one (forStatement_closes h blocks s)
  · exact one (withStatement_closes h blocks s)
  · exact one (functionDef_closes h blocks s)
  · exact one (classDef_closes h blocks s)
  · exact one (tryStatement_closes h blocks s)
  · exact one (decorated_closes h blocks s)
  · exact simpleStatements_closes h s

end

/-! ### Whole scripts -/

theorem within_closes (h : KnotCloses k) (size : Nat) :
    BlocksCloses ⟨statementWithin k size, branchWithin k size⟩ := by
  induction size with
  | zero =>
    refine ⟨?_, fun s _ => ?_⟩
    · simp only [statementWithin]
      exact .unexpected
    · simp only [branchWithin]
      exact Closes.unexpected s
  | succ size ih =>
    refine ⟨?_, fun s plain => ?_⟩
    · simp only [statementWithin]
      exact statement_closes h ih
    · simp only [branchWithin]
      exact ifStatement_closes h ih plain

theorem script_closes (h : KnotCloses k) {size : Nat} : Closes [] (script k size) := by
  have line : Closes [] (scriptLine k size) := by
    refine .look fun s => ?_
    split
    · exact Closes.pure s
    · rename_i found
      exact .takenKind found rfl fun _ => .pure
    · exact (within_closes h (size + 1)).statement.map s
  exact (Closes.many line).skip fun _ => .pure

end Grammar

end ScoreScript.Script
