import ScoreScript.Proofs.Grammar.Room
import ScoreScript.Proofs.Nesting.Statement

/-!
Room for statements. A block reads its colon before it comes back to a statement or to a branch, so
that on streams of at most `m` tokens statements do the same whenever the rules that blocks come
back to do so on streams of fewer than `m` (`Grammar.statement_alike`).
-/

namespace ScoreScript.Script

open Rule

/-- On streams of fewer than `m` tokens blocks come back to rules that do the same. -/
structure Blocks.Alike (m : Nat) (b b' : Blocks) : Prop where
  statement : Rule.Alike m b.statement b'.statement
  branch : Rule.Alike m b.branch b'.branch

namespace Grammar

variable {m : Nat} {k k' : Knot} {b b' : Blocks}

theorem separated_alike {α : Type} {item item' : Rule α} (h : Rule.Alike m item item') :
    Rule.Alike m (separated item) (separated item') :=
  h.bind fun _ => (Alike.many (.when? accept_yields h)).bind fun _ => .pure

theorem spanned_alike {α : Type} {start : Pos} {f : Span → α} :
    Rule.Alike m (do return f (← spanFrom start)) (do return f (← spanFrom start)) :=
  .after (fun _ => .spanFrom) fun _ => .pure

theorem importFrom_alike {start : Pos} : Rule.Alike m (importFrom start) (importFrom start) := by
  have present (n : Nesting) : Yields n (return !(← isNext (.word .importKw))) fun _ => True :=
    .skip .isNext fun _ => .pure trivial
  exact .after (fun _ => .expect) fun _ => .after (fun _ => importLevel_yields) fun _ =>
    .after (fun n => (Yields.when? (present n) dottedName_yields).mono fun _ _ => trivial) fun _ =>
      .after (fun _ => .expect) fun _ => .after (fun _ => importNames_yields) fun _ => spanned_alike

/-! ### Statements that fit on a line -/

section

variable (h : Knot.Alike m k k')
include h

theorem assignedValue_alike : Rule.Alike m (assignedValue k) (assignedValue k') :=
  .after isNext_yields fun _ => .ite (yieldExpression_alike h) (expressions_alike h)

theorem furtherTarget_alike {read : List Expr × Expr} :
    Rule.Alike m (furtherTarget k read) (furtherTarget k' read) :=
  .after accept_yields fun _ => .ite
    (Alike.lift.bind fun _ => (assignedValue_alike h).bind fun _ => .pure) .pure

theorem expressionStatement_alike {start : Pos} :
    Rule.Alike m (expressionStatement k start) (expressionStatement k' start) := by
  refine (expressions_alike h).bind fun first => .after (fun _ => .look) fun kind => ?_
  split
  · exact (Alike.loop fun _ => furtherTarget_alike h).bind fun _ => spanned_alike
  · exact .after (fun _ => .take) fun _ => Alike.lift.bind fun _ => h.expression.bind fun _ =>
      (Alike.when? accept_yields (assignedValue_alike h)).bind fun _ => spanned_alike
  · split
    · exact .after (fun _ => .take) fun _ => Alike.lift.bind fun _ =>
        (assignedValue_alike h).bind fun _ => spanned_alike
    · exact spanned_alike
  · exact spanned_alike

theorem deletedTarget_alike : Rule.Alike m (deletedTarget k) (deletedTarget k') :=
  (h.operation _).bind fun _ => .lift

theorem raised_alike : Rule.Alike m (raised k) (raised k') :=
  .after (fun _ => isStatementEnd_yields) fun _ => .ite .pure (h.expression.bind fun _ =>
    (Alike.when? accept_yields h.expression).bind fun _ => .pure)

theorem smallStatement_alike : Rule.Alike m (smallStatement k) (smallStatement k') := by
  have takes {next next' : Token TokenKind → Rule Stmt}
      (h : ∀ token, Rule.Alike m (next token) (next' token)) :
      Rule.Alike m (take >>= next) (take >>= next') :=
    .after (fun _ => .take) h
  refine .after (fun _ => .here) fun start => .after (fun _ => .look) fun kind => ?_
  split
  iterate 3 exact takes fun _ => spanned_alike
  · have present (n : Nesting) : Yields n (return !(← isStatementEnd)) fun _ => True :=
      .skip isStatementEnd_yields fun _ => .pure trivial
    exact takes fun _ => (Alike.when? present (expressions_alike h)).bind fun _ => spanned_alike
  · exact takes fun _ => (deletedTarget_alike h).bind fun _ =>
      (Alike.furtherItems (fun _ => isStatementEnd_yields) (deletedTarget_alike h)).bind fun _ =>
        spanned_alike
  iterate 2
    exact takes fun _ => (separated_alike (.refl fun _ => .name)).bind fun _ => spanned_alike
  · exact takes fun _ => h.expression.bind fun _ =>
      (Alike.when? accept_yields h.expression).bind fun _ => spanned_alike
  · exact takes fun _ => (raised_alike h).bind fun _ => spanned_alike
  · exact takes fun _ =>
      (separated_alike (.refl fun _ => importName_yields dottedName_yields)).bind fun _ =>
        spanned_alike
  · exact importFrom_alike
  · exact expressionStatement_alike h

theorem furtherStatement_alike : Rule.Alike m (furtherStatement k) (furtherStatement k') := by
  refine .after accept_yields fun _ => .ite (.after (fun _ => .look) fun kind => ?_) .pure
  split
  iterate 2 exact .pure
  exact .map (smallStatement_alike h)

theorem simpleStatements_alike : Rule.Alike m (simpleStatements k) (simpleStatements k') :=
  (smallStatement_alike h).bind fun _ => (Alike.many (furtherStatement_alike h)).bind fun _ =>
    .after (fun _ => lineEnd_yields) fun _ => .pure

end

/-! ### Blocks -/

theorem indentedBlock_alike (blocks : Blocks.Alike m b b') :
    Rule.Alike m (indentedBlock b) (indentedBlock b') := by
  have line : Rule.Alike m (blockLine b) (blockLine b') := by
    refine .after (fun _ => .look) fun kind => ?_
    split
    · exact .after (fun _ => .take) fun _ => .pure
    · exact .pure
    · exact .after (fun _ => .take) fun _ => .pure
    · exact .map blocks.statement
  refine .after (fun _ => .look) fun kind => ?_
  split
  · exact .after (fun _ => .take) fun _ => (Alike.many line).bind fun _ => .pure
  · exact .refl fun _ => .unexpected

section

variable (h : Knot.Alike (m + 1) k k') (blocks : Blocks.Alike m b b')
include h blocks

theorem block_matches {n : Nesting} {s : Stream} (short : s.size < m + 1) :
    Matches n (block b k) (block b' k') s fun _ t => t.size < s.size := by
  refine Alike.behindMark_matches (.nested (.after (fun _ => .look) fun kind => ?_)) short
  split
  · exact .after (fun _ => .take) fun _ => indentedBlock_alike blocks
  · exact simpleStatements_alike (h.mono (Nat.le_succ m))

theorem block_alike : Rule.Alike (m + 1) (block b k) (block b' k') :=
  fun _ _ short =>
    have both := block_matches h blocks short
    ⟨both.same, both.ensures.mono fun _ _ _ => trivial⟩

/-- What comes after a block has fewer tokens to read. -/
theorem block_before {α : Type} {next next' : List Stmt → Rule α}
    (after : ∀ body, Rule.Alike m (next body) (next' body)) :
    Rule.Alike (m + 1) (block b k >>= next) (block b' k' >>= next') :=
  fun n _ short => (block_matches h blocks short).bind fun body t _ less =>
    after body n t (Nat.lt_of_lt_of_le less (Nat.le_of_lt_succ short))

theorem optionalBlock_alike (word : Keyword) :
    Rule.Alike (m + 1) (optionalBlock b k word) (optionalBlock b' k' word) :=
  .after accept_yields fun _ => .ite (block_alike h blocks) .pure

/-- The next branch of a condition is read after a block, where there are fewer tokens. -/
theorem ifStatement_alike : Rule.Alike (m + 1) (ifStatement b k) (ifStatement b' k') := by
  have other : Rule.Alike m (otherwise b k) (otherwise b' k') :=
    .after isNext_yields fun _ => .ite (blocks.branch.bind fun _ => .pure)
      ((optionalBlock_alike h blocks .elseKw).mono (Nat.le_succ m))
  exact .after (fun _ => .here) fun _ => .after (fun _ => .take) fun _ =>
    (namedExpression_alike h).bind fun _ => block_before h blocks fun _ =>
      other.bind fun _ => spanned_alike

theorem whileStatement_alike : Rule.Alike (m + 1) (whileStatement b k) (whileStatement b' k') :=
  .after (fun _ => .here) fun _ => .after (fun _ => .expect) fun _ =>
    (namedExpression_alike h).bind fun _ => (block_alike h blocks).bind fun _ =>
      (optionalBlock_alike h blocks _).bind fun _ => spanned_alike

theorem forStatement_alike : Rule.Alike (m + 1) (forStatement b k) (forStatement b' k') :=
  .after (fun _ => .here) fun _ => .after (fun _ => .expect) fun _ =>
    (loopTarget_alike h).bind fun _ => .after (fun _ => .expect) fun _ =>
      (expressions_alike h).bind fun _ => (block_alike h blocks).bind fun _ =>
        (optionalBlock_alike h blocks _).bind fun _ => spanned_alike

theorem withStatement_alike : Rule.Alike (m + 1) (withStatement b k) (withStatement b' k') := by
  have target : Rule.Alike (m + 1) (itemTarget k) (itemTarget k') :=
    (starredOperand_alike h).bind fun _ => .lift
  have item : Rule.Alike (m + 1) (withItem k) (withItem k') :=
    .after (fun _ => .here) fun _ => h.expression.bind fun _ =>
      (Alike.when? accept_yields target).bind fun _ => spanned_alike
  exact .after (fun _ => .here) fun _ => .after (fun _ => .expect) fun _ =>
    (separated_alike item).bind fun _ => (block_alike h blocks).bind fun _ => spanned_alike

theorem functionDef_alike {decorators : List Expr} :
    Rule.Alike (m + 1) (functionDef b k decorators) (functionDef b' k' decorators) :=
  .after (fun _ => .here) fun _ => .after (fun _ => .expect) fun _ =>
    .after (fun _ => .name) fun _ => .after (fun _ => .expect) fun _ =>
    (parameters_alike h).bind fun _ => .after (fun _ => .expect) fun _ =>
      (Alike.when? accept_yields h.expression).bind fun _ =>
        (block_alike h blocks).bind fun _ => spanned_alike

theorem classDef_alike {decorators : List Expr} :
    Rule.Alike (m + 1) (classDef b k decorators) (classDef b' k' decorators) := by
  refine .after (fun _ => .here) fun _ => .after (fun _ => .expect) fun _ =>
    .after (fun _ => .name) fun _ => .after accept_yields fun _ =>
      .ite ((arguments_alike h).bind ?rest) (Alike.pure.bind ?rest)
  exact fun _ => (block_alike h blocks).bind fun _ => spanned_alike

theorem decorated_alike : Rule.Alike (m + 1) (decorated b k) (decorated b' k') := by
  have one : Rule.Alike (m + 1) (decorator k) (decorator k') :=
    (namedExpression_alike h).bind fun _ => .after (fun _ => lineEnd_yields) fun _ => .pure
  refine (Alike.many (.when? accept_yields one)).bind fun _ =>
    .after (fun _ => .look) fun kind => ?_
  split
  · exact functionDef_alike h blocks
  · exact classDef_alike h blocks
  · exact .refl fun _ => .unexpected

theorem tryStatement_alike : Rule.Alike (m + 1) (tryStatement b k) (tryStatement b' k') := by
  have handled : Rule.Alike (m + 1) (handled k) (handled k') :=
    .after isNext_yields fun _ => .ite .pure (h.expression.bind fun _ =>
      .after (fun n => (Yields.when? .accept .name).mono fun _ _ => trivial) fun _ => .pure)
  have handler : Rule.Alike (m + 1) (exceptHandler b k) (exceptHandler b' k') :=
    .after (fun _ => .here) fun _ => .after (fun _ => .expect) fun _ => handled.bind fun _ =>
      (block_alike h blocks).bind fun _ => spanned_alike
  exact .after (fun _ => .here) fun _ => .after (fun _ => .expect) fun _ =>
    (block_alike h blocks).bind fun _ => (Alike.many (.when? isNext_yields handler)).bind fun _ =>
      (optionalBlock_alike h blocks _).bind fun _ => (optionalBlock_alike h blocks _).bind fun _ =>
        .ite (.refl fun _ => .unexpected) spanned_alike

theorem statement_alike : Rule.Alike (m + 1) (statement b k) (statement b' k') := by
  refine .after (fun _ => .look) fun kind => ?_
  split
  · exact (ifStatement_alike h blocks).bind fun _ => .pure
  · exact (whileStatement_alike h blocks).bind fun _ => .pure
  · exact (forStatement_alike h blocks).bind fun _ => .pure
  · exact (withStatement_alike h blocks).bind fun _ => .pure
  · exact (functionDef_alike h blocks).bind fun _ => .pure
  · exact (classDef_alike h blocks).bind fun _ => .pure
  · exact (tryStatement_alike h blocks).bind fun _ => .pure
  · exact (decorated_alike h blocks).bind fun _ => .pure
  · exact simpleStatements_alike h

end

end Grammar

end ScoreScript.Script
