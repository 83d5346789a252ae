import ScoreScript.Proofs.Nesting.Expression
import ScoreScript.Script.Grammar.Statement
import ScoreScript.Proofs.Script.Lines
import ScoreScript.Proofs.Script.Operand

/-!
How deep statements nest. A block takes a level for the statements in it, but a condition in place
of another one takes none.
-/

namespace ScoreScript.Script

namespace Grammar

open Rule

/-- The rules for statements that blocks come back to read what is as shallow as the room
demands. -/
structure BlocksBounded (b : Blocks) : Prop where
  statement : ∀ n, 0 < n.limit → Yields n b.statement fun body =>
    ∀ s ∈ body, s.Shallow (20 * n.room + 16)
  branch : ∀ n, 0 < n.limit → Yields n b.branch fun s =>
    s.isIf = true ∧ s.Shallow (20 * n.room + 16)

variable {n : Nesting} {k : Knot} {b : Blocks}

/-! ### Statements that fit on a line -/

theorem isStatementEnd_yields : Yields n isStatementEnd fun _ => True := by
  unfold isStatementEnd
  refine .skip .look fun kind => ?_
  split <;> exact .pure trivial

theorem lineEnd_yields : Yields n lineEnd fun _ => True := by
  unfold lineEnd
  refine .skip .look fun kind => ?_
  split
  · exact .skip .take fun _ => .pure trivial
  · exact .pure trivial
  · exact .unexpected

theorem dottedName_yields : Yields n dottedName fun _ => True := by
  unfold dottedName
  refine .skip .name fun first => ?_
  exact (Yields.many (.when? .accept .name)).bind fun rest _ => .pure trivial

theorem importName_yields {path : Rule String} (h : Yields n path fun _ => True) :
    Yields n (importName path) fun _ => True := by
  unfold importName
  refine .skip .here fun start => h.skip fun name => ?_
  exact (Yields.when? .accept .name).bind fun rename _ => .skip .spanFrom fun _ => .pure trivial

theorem importLevel_yields : Yields n importLevel fun _ => True := by
  unfold importLevel
  refine (Yields.many (P := fun _ => True) (.skip .accept fun dot => .ite (.pure ?_)
    (.skip .accept fun dots => .ite (.pure ?_) (.pure ?_)))).bind fun dots _ => .pure trivial
  iterate 3 exact fun _ _ => trivial

theorem importNames_yields : Yields n importNames fun _ => True := by
  have one : Yields n (importName name) fun _ => True := importName_yields .name
  unfold importNames
  refine .skip .here fun start => .skip .accept fun star => .ite ?_ (.skip .accept fun open' =>
    .ite ?_ ?_)
  · exact .skip .spanFrom fun _ => .pure trivial
  · refine one.skip fun first => (Yields.furtherItems .isNext one trivial).bind fun names _ => ?_
    exact .skip .expect fun _ => .pure trivial
  · exact (Yields.separated one).mono fun _ _ => trivial

/-- A statement without parts. -/
theorem leaf_shallow {c : Nat} {s : Stmt} (tight : s.loose = []) (leaf : s.held = []) :
    s.Shallow (c + 1) :=
  Stmt.shallow_of_held tight (by rw [leaf]; exact List.forall_mem_nil _)

/-- What is imported has no parts. -/
theorem imported_shallow {c : Nat} {names : List Alias} :
    ∀ q ∈ names.map Node.imported, q.Shallow c :=
  List.forall_mem_map.2 fun _ _ => Node.shallow_of_parts rfl (List.forall_mem_nil _)

theorem importFrom_yields {start : Pos} {c : Nat} :
    Yields n (importFrom start) (Stmt.Shallow (c + 1)) := by
  have present : Yields n (return !(← isNext (.word .importKw))) fun _ => True :=
    .skip .isNext fun _ => .pure trivial
  unfold importFrom
  refine .skip .expect fun _ => importLevel_yields.skip fun level => ?_
  refine (Yields.when? present dottedName_yields).bind fun path _ => .skip .expect fun _ => ?_
  refine importNames_yields.skip fun names => .skip .spanFrom fun span => .pure ?_
  exact Stmt.shallow_of_held rfl imported_shallow

section

variable (limited : 0 < n.limit) (bounded : Bounded k)
include limited bounded

theorem assignedValue_yields : Yields n (assignedValue k) (Expr.Shallow (20 * n.room + 3)) := by
  unfold assignedValue
  refine .skip .isNext fun isYield => .ite (yieldExpression_yields limited bounded) ?_
  exact (expressions_yields limited bounded).mono fun e holds => holds.mono (Nat.le_succ _)

theorem furtherTarget_yields {read : List Expr × Expr}
    (targets : ∀ e ∈ read.1, e.Shallow (20 * n.room + 3))
    (value : read.2.Shallow (20 * n.room + 3)) :
    Yields n (furtherTarget k read) fun read? => ∀ read ∈ read?,
      (∀ e ∈ read.1, e.Shallow (20 * n.room + 3)) ∧ read.2.Shallow (20 * n.room + 3) := by
  unfold furtherTarget
  refine .skip .accept fun more => .ite ?_ (.pure forall_mem_none)
  refine (toTarget_yields value).bind fun target holds => ?_
  refine (assignedValue_yields limited bounded).bind fun value' holds' => .pure ?_
  exact forall_mem_some ⟨List.forall_mem_cons.2 ⟨holds, targets⟩, holds'⟩

theorem expressionStatement_yields {start : Pos} :
    Yields n (expressionStatement k start) (Stmt.Shallow (20 * n.room + 4)) := by
  have expression := wholeExpression_yields limited bounded
  have assigned := assignedValue_yields limited bounded
  unfold expressionStatement
  refine (expressions_yields limited bounded).bind fun first holds => ?_
  have asTarget := holds.mono (Nat.le_succ _)
  have alone : Yields n (do return Stmt.expr first (← spanFrom start))
      (Stmt.Shallow (20 * n.room + 4)) :=
    .skip .spanFrom fun span =>
      .pure (Stmt.shallow_of_held rfl (List.forall_mem_singleton.2 asTarget))
  refine .skip .look fun kind => ?_
  split
  · refine (Yields.loop (P := fun read : List Expr × Expr =>
      (∀ e ∈ read.1, e.Shallow (20 * n.room + 3)) ∧ read.2.Shallow (20 * n.room + 3))
      (fun read h => furtherTarget_yields limited bounded h.1 h.2)
      ⟨List.forall_mem_nil _, asTarget⟩).bind
      fun read all => .skip .spanFrom fun span => .pure (Stmt.shallow_of_held rfl ?_)
    simp only [Stmt.held, Stmt.parts, List.forall_mem_cons, List.forall_mem_map, List.mem_reverse]
    exact ⟨all.2, all.1⟩
  · refine .skip .take fun _ => (toTarget_yields asTarget).bind fun target holds' => ?_
    refine expression.bind fun hint holds'' => ?_
    refine (Yields.when? .accept assigned).bind fun value all => .skip .spanFrom fun span => ?_
    refine .pure (Stmt.shallow_of_held rfl ?_)
    simp only [Stmt.held, Stmt.parts, List.forall_mem_cons, forall_mem_optional]
    exact ⟨holds', holds''.mono (by omega), all⟩
  · split
    · refine .skip .take fun _ => (toTarget_yields asTarget).bind fun target holds' => ?_
      refine assigned.bind fun value holds'' => .skip .spanFrom fun span => ?_
      refine .pure (Stmt.shallow_of_held rfl (List.forall_mem_cons.2 ⟨holds', ?_⟩))
      exact List.forall_mem_singleton.2 holds''
    · exact alone
  · exact alone

theorem deletedTarget_yields : Yields n (deletedTarget k) (Expr.Shallow (20 * n.room + 11)) :=
  (operation_yields limited bounded .bitOr).bind fun _ holds => toTarget_yields holds

theorem raised_yields : Yields n (raised k) fun both =>
    (∀ e ∈ both.1, e.Shallow (20 * n.room)) ∧ ∀ e ∈ both.2, e.Shallow (20 * n.room) := by
  have expression := wholeExpression_yields limited bounded
  unfold raised
  refine isStatementEnd_yields.skip fun ends => .ite (.pure ⟨forall_mem_none, forall_mem_none⟩) ?_
  refine expression.bind fun value holds => ?_
  exact (Yields.when? .accept expression).bind fun cause all => .pure ⟨forall_mem_some holds, all⟩

theorem smallStatement_yields : Yields n (smallStatement k) (Stmt.Shallow (20 * n.room + 12)) := by
  have expression := wholeExpression_yields limited bounded
  have deleted := deletedTarget_yields limited bounded
  unfold smallStatement
  refine .skip .here fun start => .skip .look fun kind => ?_
  split
  iterate 3 exact .skip .take fun _ => .skip .spanFrom fun span => .pure (leaf_shallow rfl rfl)
  · have present : Yields n (return !(← isStatementEnd)) fun _ => True :=
      isStatementEnd_yields.skip fun _ => .pure trivial
    refine .skip .take fun _ => (Yields.when? present (expressions_yields limited bounded)).bind
      fun value all => .skip .spanFrom fun span => .pure (Stmt.shallow_of_held rfl ?_)
    exact forall_mem_optional.2 fun e member => (all e member).mono (by omega)
  · refine .skip .take fun _ => deleted.bind fun first holds => ?_
    refine (Yields.furtherItems isStatementEnd_yields deleted holds).bind fun targets all => ?_
    exact .skip .spanFrom fun span => .pure (Stmt.shallow_of_held rfl (forall_mem_expr.2 all))
  iterate 2
    exact .skip .take fun _ => (Yields.separated .name).bind fun names _ =>
      .skip .spanFrom fun span => .pure (leaf_shallow rfl rfl)
  · refine .skip .take fun _ => expression.bind fun test holds => ?_
    refine (Yields.when? .accept expression).bind fun message all => .skip .spanFrom fun span => ?_
    refine .pure (Stmt.shallow_of_held (b := 20 * n.room + 11) rfl ?_)
    simp only [Stmt.held, Stmt.parts, List.forall_mem_cons, forall_mem_optional]
    exact ⟨holds.mono (by omega), fun e member => (all e member).mono (by omega)⟩
  · refine .skip .take fun _ => (raised_yields limited bounded).bind fun both all => ?_
    refine .skip .spanFrom fun span => .pure (Stmt.shallow_of_held (b := 20 * n.room + 11) rfl ?_)
    simp only [Stmt.held, Stmt.parts, List.map_append, List.forall_mem_append, forall_mem_optional]
    exact ⟨fun e member => (all.1 e member).mono (by omega),
      fun e member => (all.2 e member).mono (by omega)⟩
  · refine .skip .take fun _ => (Yields.separated (importName_yields dottedName_yields)).bind
      fun names _ => .skip .spanFrom fun span => .pure (Stmt.shallow_of_held rfl imported_shallow)
  · exact importFrom_yields
  · exact (expressionStatement_yields limited bounded).mono fun s holds => holds.mono (by omega)

theorem furtherStatement_yields : Yields n (furtherStatement k) fun s? =>
    ∀ s ∈ s?, s.Shallow (20 * n.room + 12) := by
  unfold furtherStatement
  refine .skip .accept fun more => .ite (.skip .look fun kind => ?_) (.pure forall_mem_none)
  split
  iterate 2 exact .pure forall_mem_none
  exact (smallStatement_yields limited bounded).map fun s holds => forall_mem_some holds

theorem simpleStatements_yields : Yields n (simpleStatements k) fun body =>
    ∀ s ∈ body, s.Shallow (20 * n.room + 12) := by
  unfold simpleStatements
  refine (smallStatement_yields limited bounded).bind fun first holds => ?_
  refine (Yields.many (furtherStatement_yields limited bounded)).bind fun rest all => ?_
  exact lineEnd_yields.skip fun _ => .pure (List.forall_mem_cons.2 ⟨holds, all⟩)

/-! ### Statements with blocks -/

omit bounded in
theorem blockLine_yields (blocks : BlocksBounded b) : Yields n (blockLine b) fun body? =>
    ∀ body ∈ body?, ∀ s ∈ body, s.Shallow (20 * n.room + 16) := by
  unfold blockLine
  refine .skip .look fun kind => ?_
  split
  · exact .skip .take fun _ => .pure forall_mem_none
  · exact .pure forall_mem_none
  · exact .skip .take fun _ => .pure (forall_mem_some (List.forall_mem_nil _))
  · exact (blocks.statement n limited).map fun body all => forall_mem_some all

omit bounded in
theorem indentedBlock_yields (blocks : BlocksBounded b) : Yields n (indentedBlock b) fun body =>
    ∀ s ∈ body, s.Shallow (20 * n.room + 16) := by
  unfold indentedBlock
  refine .skip .look fun kind => ?_
  split
  · refine .skip .take fun _ => (Yields.many (blockLine_yields limited blocks)).bind ?_
    intro lines all
    refine .pure fun s member => ?_
    obtain ⟨body, line, inside⟩ := List.mem_flatten.1 member
    exact all body line s inside
  · exact .unexpected

variable (blocks : BlocksBounded b)
include blocks

/-- A block takes a level for the statements in it. -/
theorem block_yields : Yields n (block b k) fun body =>
    ∀ s ∈ body, s.Shallow (20 * n.room + 15) := by
  unfold block
  refine .skip .expect fun _ => .nested limited fun m limited' level => ?_
  have inner : 20 * m.room + 16 ≤ 20 * n.room + 15 := by omega
  refine .skip .look fun kind => ?_
  split
  · exact .skip .take fun _ => (indentedBlock_yields limited' blocks).mono fun body all s member =>
      (all s member).mono inner
  · refine (simpleStatements_yields limited' bounded).mono fun body all s member => ?_
    exact (all s member).mono (by omega)

theorem optionalBlock_yields (word : Keyword) : Yields n (optionalBlock b k word) fun body =>
    ∀ s ∈ body, s.Shallow (20 * n.room + 15) :=
  .skip .accept fun _ => .ite (block_yields limited bounded blocks) (.pure (List.forall_mem_nil _))

/-- A condition in place of another one is as deep as that may be. -/
theorem otherwise_yields : Yields n (otherwise b k) fun other => ∀ s ∈ other,
    s.Shallow (20 * n.room + 16) ∧ (s.isIf = false → s.Shallow (20 * n.room + 15)) := by
  unfold otherwise
  refine .skip .isNext fun isElif => .ite ?_ ?_
  · refine (blocks.branch n limited).bind fun s holds => .pure (List.forall_mem_singleton.2 ?_)
    exact ⟨holds.2, fun other => nomatch holds.1.symm.trans other⟩
  · refine (optionalBlock_yields limited bounded blocks _).mono fun body all s member => ?_
    exact ⟨(all s member).mono (Nat.le_succ _), fun _ => all s member⟩

theorem ifStatement_yields : Yields n (ifStatement b k) fun s =>
    s.isIf = true ∧ s.Shallow (20 * n.room + 16) := by
  unfold ifStatement
  refine .skip .here fun start => .skip .take fun _ => ?_
  refine (namedExpression_yields limited bounded).bind fun test holds => ?_
  refine (block_yields limited bounded blocks).bind fun body inBody => ?_
  refine (otherwise_yields limited bounded blocks).bind fun other inOther => ?_
  refine .skip .spanFrom fun span => .pure ⟨rfl, Stmt.shallow_iff.2 ⟨?_, ?_⟩⟩
  · simp only [Stmt.held, List.forall_mem_cons, List.forall_mem_map, List.forall_mem_append,
      List.mem_filter, Bool.not_eq_true']
    exact ⟨holds.mono (by omega), inBody, fun s both => (inOther s both.1).2 both.2⟩
  · simp only [Stmt.loose, List.forall_mem_map, List.mem_filter]
    exact fun s member => (inOther s member.1).1.mono (by omega)

theorem whileStatement_yields :
    Yields n (whileStatement b k) (Stmt.Shallow (20 * n.room + 16)) := by
  unfold whileStatement
  refine .skip .here fun start => .skip .expect fun _ => ?_
  refine (namedExpression_yields limited bounded).bind fun test holds => ?_
  refine (block_yields limited bounded blocks).bind fun body inBody => ?_
  refine (optionalBlock_yields limited bounded blocks _).bind fun other inOther => ?_
  refine .skip .spanFrom fun span => .pure (Stmt.shallow_of_held rfl ?_)
  simp only [Stmt.held, Stmt.parts, List.forall_mem_cons, List.forall_mem_map,
    List.forall_mem_append]
  exact ⟨holds.mono (by omega), inBody, inOther⟩

theorem forStatement_yields :
    Yields n (forStatement b k) (Stmt.Shallow (20 * n.room + 16)) := by
  unfold forStatement
  refine .skip .here fun start => .skip .expect fun _ => ?_
  refine (loopTarget_yields limited bounded).bind fun target holds => .skip .expect fun _ => ?_
  refine (expressions_yields limited bounded).bind fun source holds' => ?_
  refine (block_yields limited bounded blocks).bind fun body inBody => ?_
  refine (optionalBlock_yields limited bounded blocks _).bind fun other inOther => ?_
  refine .skip .spanFrom fun span => .pure (Stmt.shallow_of_held rfl ?_)
  simp only [Stmt.held, Stmt.parts, List.forall_mem_cons, List.forall_mem_map,
    List.forall_mem_append]
  exact ⟨holds.mono (by omega), holds'.mono (by omega), inBody, inOther⟩

omit blocks in
theorem withItem_yields : Yields n (withItem k) fun i =>
    (Node.item i).Shallow (20 * n.room + 15) := by
  have target : Yields n (itemTarget k) (Expr.Shallow (20 * n.room + 11)) :=
    (starredOperand_yields limited bounded).bind fun _ holds => toTarget_yields holds
  unfold withItem
  refine .skip .here fun start => ?_
  refine (wholeExpression_yields limited bounded).bind fun context holds => ?_
  refine (Yields.when? .accept target).bind fun target all => .skip .spanFrom fun span => ?_
  refine .pure (Node.shallow_of_parts rfl ?_)
  simp only [Node.parts, List.forall_mem_cons, forall_mem_optional]
  exact ⟨holds.mono (by omega), fun e member => (all e member).mono (by omega)⟩

theorem withStatement_yields :
    Yields n (withStatement b k) (Stmt.Shallow (20 * n.room + 16)) := by
  unfold withStatement
  refine .skip .here fun start => .skip .expect fun _ => ?_
  refine (Yields.separated (withItem_yields limited bounded)).bind fun items inItems => ?_
  refine (block_yields limited bounded blocks).bind fun body inBody => ?_
  refine .skip .spanFrom fun span => .pure (Stmt.shallow_of_held rfl ?_)
  simp only [Stmt.held, Stmt.parts, List.forall_mem_map, List.forall_mem_append]
  exact ⟨inItems, inBody⟩

theorem functionDef_yields {decorators : List Expr}
    (inDecorators : ∀ e ∈ decorators, e.Shallow (20 * n.room + 15)) :
    Yields n (functionDef b k decorators) (Stmt.Shallow (20 * n.room + 16)) := by
  unfold functionDef
  refine .skip .here fun start => .skip .expect fun _ => .skip .name fun name =>
    .skip .expect fun _ => ?_
  refine (parameters_yields limited bounded).bind fun params holds => .skip .expect fun _ => ?_
  refine (Yields.when? .accept (wholeExpression_yields limited bounded)).bind
    fun returns inReturns => ?_
  refine (block_yields limited bounded blocks).bind fun body inBody => ?_
  refine .skip .spanFrom fun span => .pure (Stmt.shallow_of_held rfl ?_)
  simp only [Stmt.held, Stmt.parts, List.map_append, List.forall_mem_cons, List.forall_mem_append,
    List.forall_mem_map, Option.mem_toList]
  have inReturns' := fun e member => (inReturns e member).mono (c := 20 * n.room + 15) (by omega)
  exact ⟨holds.mono (by omega), ⟨inDecorators, inReturns'⟩, inBody⟩

theorem classDef_yields {decorators : List Expr}
    (inDecorators : ∀ e ∈ decorators, e.Shallow (20 * n.room + 15)) :
    Yields n (classDef b k decorators) (Stmt.Shallow (20 * n.room + 16)) := by
  unfold classDef
  refine .skip .here fun start => .skip .expect fun _ => .skip .name fun name => ?_
  refine .skip .accept fun open' => .ite ((arguments_yields limited bounded).bind ?rest)
    (.bind (.pure ⟨List.forall_mem_nil _, List.forall_mem_nil _⟩) ?rest)
  rintro ⟨bases, keywords⟩ ⟨inBases, inKeywords⟩
  refine (block_yields limited bounded blocks).bind fun body inBody => ?_
  refine .skip .spanFrom fun span => .pure (Stmt.shallow_of_held rfl ?_)
  simp only [Stmt.held, Stmt.parts, List.map_append, List.forall_mem_append, List.forall_mem_map]
  exact ⟨⟨⟨inDecorators, fun e member => (inBases e member).mono (by omega)⟩,
    fun k member => (inKeywords k member).mono (by omega)⟩, inBody⟩

theorem decorated_yields : Yields n (decorated b k) (Stmt.Shallow (20 * n.room + 16)) := by
  have one : Yields n (decorator k) (Expr.Shallow (20 * n.room + 15)) :=
    (namedExpression_yields limited bounded).bind fun e holds =>
      lineEnd_yields.skip fun _ => .pure (holds.mono (by omega))
  unfold decorated
  refine (Yields.many (.when? .accept one)).bind fun decorators all => .skip .look fun kind => ?_
  split
  · exact functionDef_yields limited bounded blocks all
  · exact classDef_yields limited bounded blocks all
  · exact .unexpected

theorem exceptHandler_yields : Yields n (exceptHandler b k) fun h =>
    (Node.handler h).Shallow (20 * n.room + 15) := by
  have handled : Yields n (handled k) fun both => ∀ e ∈ both.1, e.Shallow (20 * n.room) := by
    refine .skip .isNext fun bare => .ite (.pure forall_mem_none) ?_
    refine (wholeExpression_yields limited bounded).bind fun type holds => ?_
    exact (Yields.when? .accept .name).bind fun name _ => .pure (forall_mem_some holds)
  unfold exceptHandler
  refine .skip .here fun start => .skip .expect fun _ => handled.bind fun both inType => ?_
  refine (block_yields limited bounded blocks).bind fun body inBody => ?_
  refine .skip .spanFrom fun span => .pure (Node.shallow_of_parts rfl ?_)
  simp only [Node.parts, List.forall_mem_append, List.forall_mem_map, Option.mem_toList]
  exact ⟨fun e member => (inType e member).mono (by omega), inBody⟩

theorem tryStatement_yields :
    Yields n (tryStatement b k) (Stmt.Shallow (20 * n.room + 16)) := by
  have optional := optionalBlock_yields limited bounded blocks
  unfold tryStatement
  refine .skip .here fun start => .skip .expect fun _ => ?_
  refine (block_yields limited bounded blocks).bind fun body inBody => ?_
  refine (Yields.many (.when? .isNext (exceptHandler_yields limited bounded blocks))).bind ?_
  intro handlers inHandlers
  refine (optional .elseKw).bind fun other inOther =>
    (optional .finallyKw).bind fun final inFinal => ?_
  refine .ite .unexpected (.skip .spanFrom fun span => .pure (Stmt.shallow_of_held rfl ?_))
  simp only [Stmt.held, Stmt.parts, List.forall_mem_append, List.forall_mem_map]
  exact ⟨inHandlers, ⟨inBody, inOther⟩, inFinal⟩

theorem statement_yields : Yields n (statement b k) fun body =>
    ∀ s ∈ body, s.Shallow (20 * n.room + 16) := by
  have one {rule : Rule Stmt} (h : Yields n rule (Stmt.Shallow (20 * n.room + 16))) :
      Yields n (do return [← rule]) fun body => ∀ s ∈ body, s.Shallow (20 * n.room + 16) :=
    h.bind fun s holds => .pure (List.forall_mem_singleton.2 holds)
  unfold statement
  refine .skip .look fun kind => ?_
  split
  · exact one ((ifStatement_yields limited bounded blocks).mono fun s holds => holds.2)
  · exact one (whileStatement_yields limited bounded blocks)
  · exact one (forStatement_yields limited bounded blocks)
  · exact one (withStatement_yields limited bounded blocks)
  · exact one (functionDef_yields limited bounded blocks (List.forall_mem_nil _))
  · exact one (classDef_yields limited bounded blocks (List.forall_mem_nil _))
  · exact one (tryStatement_yields limited bounded blocks)
  · exact one (decorated_yields limited bounded blocks)
  · refine (simpleStatements_yields limited bounded).mono fun body all s member => ?_
    exact (all s member).mono (by omega)

end

/-! ### Whole scripts -/

theorem statementWithin_bounded (bounded : Bounded k) (size : Nat) :
    BlocksBounded ⟨statementWithin k size, branchWithin k size⟩ := by
  induction size with
  | zero =>
    refine ⟨fun n _ => ?_, fun n _ => ?_⟩
    · simp only [statementWithin]
      exact .unexpected
    · simp only [branchWithin]
      exact .unexpected
  | succ size ih =>
    refine ⟨fun n limited => ?_, fun n limited => ?_⟩
    · simp only [statementWithin]
      exact statement_yields limited bounded ih
    · simp only [branchWithin]
      exact ifStatement_yields limited bounded ih

theorem script_yields (limited : 0 < n.limit) (bounded : Bounded k) {size : Nat} :
    Yields n (script k size) fun m => ∀ s ∈ m.body, s.Shallow (20 * n.room + 16) := by
  have within := (statementWithin_bounded bounded (size + 1)).statement n limited
  have line : Yields n (scriptLine k size) fun body? =>
      ∀ body ∈ body?, ∀ s ∈ body, s.Shallow (20 * n.room + 16) := by
    refine .skip .look fun kind => ?_
    split
    · exact .pure forall_mem_none
    · exact .skip .take fun _ => .pure (forall_mem_some (List.forall_mem_nil _))
    · exact within.map fun body all => forall_mem_some all
  unfold script
  refine (Yields.many line).bind fun lines all => .pure fun s member => ?_
  obtain ⟨body, inLines, inside⟩ := List.mem_flatten.1 member
  exact all body inLines s inside

end Grammar

/-!
What the limit on nesting limits: a chain inwards from a statement of a script is as long as the
limit allows, but for its loose steps (`length_le_of_chain`). These are free, so that no limit
bounds the chains of all scripts (`not_exists_chain_bound`): what a call returns can be called
again, and no call counts as nested in the next one.
-/

open Rule Grammar Layout

/-- A name that is called, and what it returns again and again, so many times. -/
def repeatedCall (count : Nat) : String :=
  "a" ++ String.join (List.replicate count "()")

def callsKinds (count : Nat) : List TokenKind :=
  (List.replicate count [TokenKind.op .leftParen, .op .rightParen]).flatten

/-- A name, and brackets without anything between them so many times. -/
theorem isPhrase_repeatedCall (count : Nat) :
    IsPhrase (repeatedCall count) (.name "a" :: callsKinds count) := by
  induction count with
  | zero => exact .name (by decide) (by decide)
  | succ count ih =>
    have text : repeatedCall (count + 1) = repeatedCall count ++ ("(" ++ "" ++ ")") := by
      rw [repeatedCall, List.replicate_succ', String.join_append, ← String.append_assoc]
      rfl
    have kinds : callsKinds (count + 1) = callsKinds count ++ [.op .leftParen, .op .rightParen] := by
      rw [callsKinds, List.replicate_succ', List.flatten_append]
      rfl
    rw [text, kinds]
    exact ih.call .empty

section

variable {n : Nesting} {k : Knot} {rest : List TokenKind}

/-- A call without arguments. -/
theorem reads_emptyCall {start : Pos} {owner : Expr} :
    Reads n (postfixed k start owner) [.op .leftParen, .op .rightParen] rest
      fun call? => ∃ call, call? = some call ∧ ∃ span, call = .call owner [] [] span := by
  have none : Reads n (arguments k) [.op .rightParen] rest (· = ([], [])) := by
    have items : Reads n (addItems (isNext (.op .rightParen)) (argument k) .empty) []
        (.op .rightParen :: rest) (· = .empty) :=
      .bind_isNext (.op .rightParen) rfl (.pure rfl)
    unfold arguments
    refine .bind_nothing items ?_
    rintro _ rfl
    exact .bind_all (.expect_taken rfl) fun _ _ => .pure rfl
  unfold postfixed
  refine .bind_accept rfl (.bind_all none ?_)
  rintro _ rfl
  exact .bind_span fun span => .pure ⟨_, rfl, span, rfl⟩

/-- Each call makes the chain to the left longer by one. -/
theorem reads_calls {start : Pos} (count : Nat) : ∀ {owner : Expr} (steps : Nat),
    Chain (.expr owner) steps (steps + 1) →
    Reads n (loop (postfixed k start) owner) (callsKinds count) (.newline :: rest)
      fun e => Chain (.expr e) (steps + count) (steps + count + 1) := by
  induction count with
  | zero => exact fun _ chain => .loop_stop (postfixed_ended rfl start _) chain
  | succ count ih =>
    intro owner steps chain
    unfold callsKinds
    rw [List.replicate_succ, List.flatten_cons]
    refine .loop_more _ _ (by simp) reads_emptyCall ?_
    rintro _ ⟨span, rfl⟩
    have longer : Chain (.expr (.call owner [] [] span)) (steps + 1) (steps + 1 + 1) :=
      .loose List.mem_cons_self chain
    refine (ih (steps + 1) longer).mono fun e further => ?_
    rwa [Nat.add_right_comm, Nat.add_assoc] at further

theorem reads_repeatedCall (count : Nat) :
    Reads n (primary k) (.name "a" :: callsKinds count) (.newline :: rest)
      fun e => Chain (.expr e) count (count + 1) := by
  unfold primary
  refine .bind_here fun start => .bind_one atom_name ?_
  rintro _ ⟨span, rfl⟩
  refine (reads_calls count 0 (.stop _)).mono fun e chain => ?_
  rwa [Nat.zero_add] at chain

end

/-- Whatever the limit on nesting is, repeated calls make a chain of any length. -/
theorem exists_chain_repeatedCall (maxDepth count : Nat) :
    ∃ m s, Module.ofText ⟨maxDepth, 0⟩ (repeatedCall count ++ "\n") = .ok m ∧ s ∈ m.body ∧
      Chain (.stmt s) count (count + 2) := by
  obtain ⟨tokens, lexed, kinds⟩ := tokens_line (isPhrase_repeatedCall count)
  have script (hole : Nat → String → Except Error Expr) : Reads ⟨maxDepth, 0⟩
      (script (knot hole tokens.length) tokens.length) (.name "a" :: callsKinds count ++ [.newline])
      [.eof] fun m => ∃ s, m = ⟨[s]⟩ ∧ Chain (.stmt s) count (count + 2) := by
    refine script_of_statement rfl fun rest => ?_
    have allowed : Limits.allows maxDepth (0 + 1) = true := by
      simp only [Limits.allows, Bool.or_eq_true, beq_iff_eq, decide_eq_true_eq]
      omega
    have call : Reads ⟨maxDepth, 0⟩ (expression (within hole tokens.length))
        (.name "a" :: callsKinds count) (.newline :: rest)
        fun e => Chain (.expr e) count (count + 1) :=
      expression_of_primary rfl rfl allowed (reads_repeatedCall count)
    refine (statementWithin_of_expression rfl call).mono ?_
    rintro _ ⟨e, span, rfl, chain⟩
    exact ⟨_, rfl, .held List.mem_cons_self chain⟩
  obtain ⟨_, read, s, rfl, chain⟩ := Module.ofText_of_reads ⟨maxDepth, 0⟩ rfl lexed kinds script
  exact ⟨_, s, read, List.mem_singleton_self s, chain⟩

/-- A chain inwards from a statement of a script has at most 20 nodes for each level of the limit
and for each loose step, and 16 outside of all levels. -/
theorem length_le_of_chain {limits : Limits} {text : String} {m : Module} {s : Stmt}
    {steps length : Nat} (limited : 0 < limits.maxDepth) (read : Module.ofText limits text = .ok m)
    (member : s ∈ m.body) (chain : Chain (.stmt s) steps length) :
    length ≤ 20 * (limits.maxDepth + steps) + 16 := by
  obtain ⟨-, -, read⟩ := ok_of_bind read
  obtain ⟨tokens, -, read⟩ := ok_of_bind read
  obtain ⟨⟨m, t⟩, done, ⟨⟩⟩ := ok_of_bind read
  have all := (Grammar.script_yields (n := ⟨limits.maxDepth, 0⟩) limited
    (Grammar.knot_bounded _ _) _ _ _ done).2
  have bound := all s member _ _ chain
  simp only [Nesting.room] at bound
  omega

theorem length_le_of_repeatedCall :
    ∃ m s, Module.ofText ⟨1, 0⟩ (repeatedCall 3 ++ "\n") = .ok m ∧ s ∈ m.body ∧
      Chain (.stmt s) 3 5 ∧ 5 ≤ 20 * (1 + 3) + 16 := by
  obtain ⟨m, s, read, member, chain⟩ := exists_chain_repeatedCall 1 3
  exact ⟨m, s, read, member, chain, length_le_of_chain Nat.one_pos read member chain⟩

/-- No function of the limit on nesting bounds the chains of scripts. -/
theorem not_exists_chain_bound :
    ¬∃ bound : Nat → Nat, ∀ (limits : Limits) (text : String) (m : Module) (s : Stmt)
      (steps length : Nat), 0 < limits.maxDepth → Module.ofText limits text = .ok m →
        s ∈ m.body → Chain (.stmt s) steps length → length ≤ bound limits.maxDepth := by
  rintro ⟨bound, bounded⟩
  obtain ⟨m, s, read, member, chain⟩ := exists_chain_repeatedCall 1 (bound 1)
  have short := bounded ⟨1, 0⟩ _ m s _ _ Nat.one_pos read member chain
  simp only at short
  omega

end ScoreScript.Script
