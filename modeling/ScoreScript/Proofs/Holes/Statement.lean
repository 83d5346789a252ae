import ScoreScript.Proofs.Holes.Expression
import ScoreScript.Script.Grammar.Statement

/-!
The rules for statements cover the tokens they use. What a statement is assigned to was read as an
expression before it became a target, and keeps what it holds.
-/

namespace ScoreScript.Script

namespace Grammar

open Rule

/-- The rules for statements that blocks come back to cover the tokens they use; the one for a
condition begins with a token that it does not look at. -/
structure BlocksCovers (b : Blocks) (k : Knot) : Prop where
  statement : Covers k.hole (some k) [] b.statement fun body => body.map .stmt
  branch : ∀ s, s.current.kind.holes = [] →
    CoversAt k.hole (some k) [] b.branch s fun inner => [.stmt inner]

variable {hole : Nat → String → Except Error Expr} {k whole : Knot} {b : Blocks} {s : Stream}
  {owed : List Node}

/-- In a script a token of a kind without holes may be taken, whether or not it is a mark. -/
theorem takenKind {β : Type} {nodes : β → List Node} {next : Token TokenKind → Rule β}
    {kind : TokenKind} (found : s.current.kind = kind) (plain : kind.holes = [])
    (h : ∀ t, Covers hole (some whole) owed (next t) nodes) :
    CoversAt hole (some whole) owed (take >>= next) s nodes :=
  .taken (by rw [found, plain]) (fun none => absurd none (Option.some_ne_none _)) h

/-! ### Statements that fit on a line -/

theorem isStatementEnd_covers : Covers hole (some whole) [] isStatementEnd fun _ => [] := by
  unfold isStatementEnd
  refine .look fun s => ?_
  split <;> exact Covers.leaf s

theorem lineEnd_covers : Covers hole (some whole) [] lineEnd fun _ => [] := by
  unfold lineEnd
  refine .look fun s => ?_
  split
  · rename_i found
    exact takenKind found rfl fun _ => .leaf
  · exact Covers.leaf s
  · exact Covers.unexpected s

theorem dottedName_covers : Covers hole (some whole) [] dottedName fun _ => [] := by
  unfold dottedName
  exact .skip .name fun first => .skip (.manyNone (.whenNone .accept .name)) fun rest => .leaf

theorem importName_covers {path : Rule String}
    (h : Covers hole (some whole) [] path fun _ => []) :
    Covers hole (some whole) [] (importName path) fun _ => [] := by
  unfold importName
  exact .skip .here fun start => h.skip fun name => .skip (.whenNone .accept .name) fun rename =>
    .skip .spanFrom fun _ => .leaf

theorem importLevel_covers : Covers hole (some whole) [] importLevel fun _ => [] := by
  unfold importLevel
  exact .skip (.manyNone (.skip .accept fun dot => .ite .leaf (.skip .accept fun dots =>
    .ite .leaf .leaf))) fun dots => .leaf

theorem importNames_covers : Covers hole (some whole) [] importNames fun _ => [] := by
  have one : Covers hole (some whole) [] (importName name) fun _ => [] := importName_covers .name
  unfold importNames
  refine .skip .here fun start => .skip .accept fun star => .ite ?_ (.skip .accept fun open' =>
    .ite ?_ (.separatedNone one))
  · exact .skip .spanFrom fun _ => .leaf
  · refine one.skip fun first => .skip (.none_of_flatMap (.furtherItems .isNext one)) fun names => ?_
    exact .skip .expect fun _ => .leaf

theorem importFrom_covers {start : Pos} :
    Covers hole (some whole) [] (importFrom start) fun s => [.stmt s] := by
  have present : Covers hole (some whole) [] (return !(← isNext (.word .importKw))) fun _ => [] :=
    .skip .isNext fun _ => .leaf
  unfold importFrom
  refine .skip .expect fun _ => importLevel_covers.skip fun level => ?_
  refine .skip (.whenNone present dottedName_covers) fun path => .skip .expect fun _ => ?_
  exact importNames_covers.skip fun names => .skip .spanFrom fun span => .leaf

/-- The targets of an assignment, and the last value that has been read for it. -/
def assigned (read : List Expr × Expr) : List Node :=
  read.1.map .expr ++ [.expr read.2]

section

variable (h : KnotCovers (some k) k)
include h

theorem assignedValue_covers : Covers k.hole (some k) [] (assignedValue k) fun e => [.expr e] :=
  .skip .isNext fun _ => .ite (yieldExpression_covers h) (expressions_covers h)

theorem furtherTarget_covers {read : List Expr × Expr} :
    Covers k.hole (some k) (assigned read) (furtherTarget k read) fun read? =>
      assigned (read?.getD read) := by
  unfold furtherTarget
  refine .skip .accept fun more => .ite ?_ (.pure fun _ => id)
  refine (toTarget_covers.frame _).seq fun target => ?_
  refine (assignedValue_covers h).bind fun value => .pure fun q inside => ?_
  simpa [assigned, or_left_comm, or_assoc] using inside

theorem expressionStatement_covers {start : Pos} :
    Covers k.hole (some k) [] (expressionStatement k start) fun s => [.stmt s] := by
  unfold expressionStatement
  refine (expressions_covers h).bind fun first => ?_
  have alone : Covers k.hole (some k) [.expr first]
      (do return Stmt.expr first (← spanFrom start)) fun s => [.stmt s] :=
    .skip .spanFrom fun span => .node fun _ => id
  refine .look fun s => ?_
  split
  · refine Covers.seq (.loop assigned fun read => furtherTarget_covers h) (fun read => ?_) s
    refine .skip .spanFrom fun span => .node fun q inside => ?_
    simpa [assigned, Node.parts, Stmt.parts, or_comm] using inside
  · rename_i found
    refine takenKind found rfl fun _ => toTarget_covers.seq fun target => ?_
    refine h.expression.bind fun hint => (Covers.when? .accept (assignedValue_covers h)).bind ?_
    exact fun value => .skip .spanFrom fun span =>
      .node (by simp [Node.parts, Stmt.parts, ← List.map_eq_flatMap])
  · rename_i found
    split
    · refine takenKind found rfl fun _ => toTarget_covers.seq fun target => ?_
      exact (assignedValue_covers h).bind fun value => .skip .spanFrom fun span =>
        .node (by simp [Node.parts, Stmt.parts])
    · exact alone s
  · exact alone s

theorem deletedTarget_covers : Covers k.hole (some k) [] (deletedTarget k) fun e => [.expr e] :=
  (h.operation _).seq fun _ => toTarget_covers

theorem raised_covers : Covers k.hole (some k) [] (raised k) fun both =>
    (both.1.toList ++ both.2.toList).map .expr := by
  unfold raised
  refine isStatementEnd_covers.skip fun ends => .ite .leaf (h.expression.bind fun value => ?_)
  exact (Covers.when? .accept h.expression).bind fun cause =>
    .pure (by simp [← List.map_eq_flatMap])

theorem smallStatement_covers :
    Covers k.hole (some k) [] (smallStatement k) fun s => [.stmt s] := by
  unfold smallStatement
  refine .skip .here fun start => .look fun s => ?_
  split <;> rename_i found
  iterate 3 exact takenKind found rfl fun _ => .skip .spanFrom fun span => .leaf
  · have present : Covers k.hole (some k) [] (return !(← isStatementEnd)) fun _ => [] :=
      isStatementEnd_covers.skip fun _ => .leaf
    refine takenKind found rfl fun _ => (Covers.when? present (expressions_covers h)).bind ?_
    exact fun value => .skip .spanFrom fun span =>
      .node (by simp [Node.parts, Stmt.parts, ← List.map_eq_flatMap])
  · refine takenKind found rfl fun _ => (deletedTarget_covers h).bind fun first => ?_
    refine (Covers.furtherItems isStatementEnd_covers (deletedTarget_covers h)).seq fun targets => ?_
    exact .skip .spanFrom fun span =>
      .node (by simp [Node.parts, Stmt.parts, ← List.map_eq_flatMap])
  iterate 2
    exact takenKind found rfl fun _ => .skip (.separatedNone .name) fun names =>
      .skip .spanFrom fun span => .leaf
  · refine takenKind found rfl fun _ => h.expression.bind fun test => ?_
    refine (Covers.when? .accept h.expression).bind fun message => .skip .spanFrom fun span => ?_
    exact .node (by simp [Node.parts, Stmt.parts, ← List.map_eq_flatMap])
  · refine takenKind found rfl fun _ => (raised_covers h).bind fun both => ?_
    exact .skip .spanFrom fun span => .node (by simp [Node.parts, Stmt.parts])
  · exact takenKind found rfl fun _ =>
      .skip (.separatedNone (importName_covers dottedName_covers)) fun names =>
        .skip .spanFrom fun span => .leaf
  · exact importFrom_covers s
  · exact expressionStatement_covers h s

theorem furtherStatement_covers : Covers k.hole (some k) [] (furtherStatement k) fun s? =>
    s?.toList.flatMap fun s => [.stmt s] := by
  unfold furtherStatement
  refine .skip .accept fun more => .ite (.look fun s => ?_) .leaf
  split
  iterate 2 exact Covers.leaf s
  exact Covers.map ((smallStatement_covers h).mono (by simp)) s

theorem simpleStatements_covers : Covers k.hole (some k) [] (simpleStatements k) fun body =>
    body.map .stmt := by
  unfold simpleStatements
  refine (smallStatement_covers h).bind fun first => ?_
  refine (Covers.many (furtherStatement_covers h)).bind fun rest => lineEnd_covers.skip fun _ => ?_
  exact .pure (by simp [← List.map_eq_flatMap])

/-! ### Statements with blocks -/

omit h in
/-- What stands in front of the parameters of a function. -/
theorem heading_used {id : String} (word : Mark.ofKind? s.current.kind = some (.word .defKw))
    (named : s.advance.current.kind = .name id)
    (opened : Mark.ofKind? s.advance.advance.current.kind = some (.op .leftParen)) :
    ∃ head, s.rest = head ++ s.advance.advance.advance.rest ∧
      head.map (·.kind) = [.keyword .defKw, .name id, .op .leftParen] := by
  have word : s.current.kind = .keyword .defKw := kind_of_word word
  have opened : s.advance.advance.current.kind = .op .leftParen := kind_of_op opened
  refine ⟨[s.current, s.advance.current, s.advance.advance.current], ?_, ?_⟩
  · rw [s.rest_eq_cons (by rw [word]; rfl), s.advance.rest_eq_cons (by rw [named]; rfl),
      s.advance.advance.rest_eq_cons (by rw [opened]; rfl)]
    rfl
  · rw [List.map_cons, List.map_cons, List.map_singleton, word, named, opened]

omit h in
theorem heading_plain {id : String} {head : List (Token TokenKind)}
    (kinds : head.map (·.kind) = [.keyword .defKw, .name id, .op .leftParen]) :
    ∀ t ∈ head, t.kind.holes = [] ∧ t.kind.isEof = false := by
  intro t inside
  have kind := List.mem_map_of_mem (f := (·.kind)) inside
  rw [kinds] at kind
  simp only [List.mem_cons, List.not_mem_nil, or_false] at kind
  rcases kind with kind | kind | kind <;> rw [kind] <;> exact ⟨rfl, rfl⟩

/-- The name and the parameters of a function. What its parameters lose, the function loses. -/
theorem signature_covers {β : Type} {nodes : β → List Node} {next : String → Parameters → Rule β}
    (rest : ∀ name params,
      Covers k.hole (some k) (owed ++ [.parameters params]) (next name params) nodes) :
    Covers k.hole (some k) owed (do
      expect (.word .defKw)
      let name ← Rule.name
      expect (.op .leftParen)
      let params ← parameters k true (.op .rightParen)
      next name params) nodes := by
  intro s n a t done
  obtain ⟨⟨⟨⟩, s₁⟩, word, named⟩ := ok_of_bind (show expect _ n s >>= _ = .ok (a, t) from done)
  obtain ⟨⟨id, s₂⟩, named, opened⟩ :=
    ok_of_bind (show Rule.name n s₁ >>= _ = .ok (a, t) from named)
  obtain ⟨⟨⟨⟩, s₃⟩, opened, listed⟩ := ok_of_bind (show expect _ n s₂ >>= _ = .ok (a, t) from opened)
  obtain ⟨⟨params, s₄⟩, sorted, others⟩ :=
    ok_of_bind (show parameters k true _ n s₃ >>= _ = .ok (a, t) from listed)
  obtain ⟨⟨entries, s₄⟩, read, ⟨⟩⟩ := ok_of_bind
    (show items (isNext (.op .rightParen)) (paramEntry k true (.op .rightParen)) n s₃ >>= _ =
      .ok (params, s₄) from sorted)
  obtain ⟨found, rfl⟩ := expect_ok word
  obtain ⟨found', rfl⟩ := name_ok named
  obtain ⟨found'', rfl⟩ := expect_ok opened
  obtain ⟨list, split, usable, held⟩ := sorted_covers h read
  obtain ⟨used, split', usable', paid⟩ := rest id _ s₄ n a t others
  obtain ⟨head, split'', kinds⟩ := heading_used found found' found''
  have plain := heading_plain kinds
  have paid' : Paid k.hole (some k) (head ++ list) owed
      (owed ++ [.parameters (ParamEntry.sort false entries)]) := by
    rintro x (here | ⟨q, owing, fills⟩)
    · rw [holesIn_append, List.mem_append] at here
      obtain ⟨token, inside, here⟩ | here := here.imp_left List.mem_flatMap.1
      · rw [(plain token inside).1] at here
        cases here
      rcases held x here with fills | ⟨-, p, replaced, fills⟩ | ⟨k', same, lost⟩
      · exact .inl ⟨_, List.mem_append_right _ (List.mem_singleton_self _), fills⟩
      · exact .inr ⟨k, rfl, head, list, n, _, entries, s₄, List.infix_rfl, ⟨id, kinds⟩, split, read,
          p, replaced, fills⟩
      · have lost := lost.mono head []
        rw [List.append_nil] at lost
        exact .inr ⟨k', same, lost⟩
    · exact .inl ⟨q, List.mem_append_left _ owing, fills⟩
  refine ⟨head ++ list ++ used, ?_, ?_, paid'.trans paid⟩
  · rw [split'', split, split', List.append_assoc, List.append_assoc]
  · have head : Usable (some k) head := fun t inside =>
      ⟨(plain t inside).2, fun none => absurd none (Option.some_ne_none _)⟩
    exact (head.append usable).append usable'

omit h in
theorem blockLine_covers (blocks : BlocksCovers b k) :
    Covers k.hole (some k) [] (blockLine b) fun body? =>
      body?.toList.flatMap fun body => body.map .stmt := by
  unfold blockLine
  refine .look fun s => ?_
  split
  · rename_i found
    exact takenKind found rfl fun _ => .leaf
  · exact Covers.leaf s
  · rename_i found
    exact takenKind found rfl fun _ => .leaf
  · exact Covers.map (blocks.statement.mono (by simp)) s

omit h in
theorem indentedBlock_covers (blocks : BlocksCovers b k) :
    Covers k.hole (some k) [] (indentedBlock b) fun body => body.map .stmt := by
  unfold indentedBlock
  refine .look fun s => ?_
  split
  · rename_i found
    refine takenKind found rfl fun _ => (Covers.many (blockLine_covers blocks)).bind fun lines => ?_
    exact .pure (by simp [List.map_flatten, List.flatMap])
  · exact Covers.unexpected s

variable (blocks : BlocksCovers b k)
include blocks

theorem block_covers : Covers k.hole (some k) [] (block b k) fun body => body.map .stmt := by
  unfold block
  refine .skip .expect fun _ => .nested (.look fun s => ?_)
  split
  · rename_i found
    exact takenKind found rfl fun _ => indentedBlock_covers blocks
  · exact simpleStatements_covers h s

theorem optionalBlock_covers (word : Keyword) :
    Covers k.hole (some k) [] (optionalBlock b k word) fun body => body.map .stmt :=
  .skip .accept fun _ => .ite (block_covers h blocks) .leaf

theorem otherwise_covers :
    Covers k.hole (some k) [] (otherwise b k) fun other => other.map .stmt := by
  unfold otherwise
  refine .ifNext (fun s found => ?_) (optionalBlock_covers h blocks _)
  refine (blocks.branch s ?_).bind fun inner t => Covers.pure (fun q inside => ?_) t
  · cases kind : s.current.kind <;> rw [kind] at found <;> first | rfl | cases found
  · exact inside

theorem ifStatement_covers (plain : s.current.kind.holes = []) :
    CoversAt k.hole (some k) [] (ifStatement b k) s fun inner => [.stmt inner] := by
  have rest {start : Pos} : Covers k.hole (some k) [] (do
      let test ← namedExpression k
      let body ← block b k
      let other ← otherwise b k
      return Stmt.ifStmt test body other (← spanFrom start)) fun inner => [.stmt inner] := by
    refine (namedExpression_covers h).bind fun test => (block_covers h blocks).bind fun body => ?_
    refine (otherwise_covers h blocks).bind fun other => .skip .spanFrom fun span => ?_
    exact .node (by simp [Node.parts, Stmt.parts])
  exact .passed plain (fun none => absurd none (Option.some_ne_none _)) (fun _ => rfl) (rest _)

theorem whileStatement_covers :
    Covers k.hole (some k) [] (whileStatement b k) fun s => [.stmt s] := by
  unfold whileStatement
  refine .skip .here fun start => .skip .expect fun _ => (namedExpression_covers h).bind ?_
  refine fun test => (block_covers h blocks).bind fun body => ?_
  exact (optionalBlock_covers h blocks _).bind fun other => .skip .spanFrom fun span =>
    .node (by simp [Node.parts, Stmt.parts])

theorem forStatement_covers :
    Covers k.hole (some k) [] (forStatement b k) fun s => [.stmt s] := by
  unfold forStatement
  refine .skip .here fun start => .skip .expect fun _ => (loopTarget_covers h).bind fun target => ?_
  refine .skip .expect fun _ => (expressions_covers h).bind fun source => ?_
  refine (block_covers h blocks).bind fun body => (optionalBlock_covers h blocks _).bind ?_
  exact fun other => .skip .spanFrom fun span => .node (by simp [Node.parts, Stmt.parts])

omit blocks in
theorem withItem_covers : Covers k.hole (some k) [] (withItem k) fun i => [.item i] := by
  have target : Covers k.hole (some k) [] (itemTarget k) fun e => [.expr e] :=
    (starredOperand_covers h).seq fun _ => toTarget_covers
  unfold withItem
  refine .skip .here fun start => h.expression.bind fun context => ?_
  exact (Covers.when? .accept target).bind fun target => .skip .spanFrom fun span =>
    .node (by simp [Node.parts, ← List.map_eq_flatMap])

theorem withStatement_covers :
    Covers k.hole (some k) [] (withStatement b k) fun s => [.stmt s] := by
  unfold withStatement
  refine .skip .here fun start => .skip .expect fun _ => ?_
  refine (Covers.separated (withItem_covers h)).bind fun items => ?_
  exact (block_covers h blocks).bind fun body => .skip .spanFrom fun span =>
    .node (by simp [Node.parts, Stmt.parts, ← List.map_eq_flatMap])

theorem functionDef_covers {decorators : List Expr} :
    Covers k.hole (some k) (decorators.map .expr) (functionDef b k decorators) fun s =>
      [.stmt s] := by
  unfold functionDef
  refine .skip .here fun start => signature_covers h fun name params => ?_
  refine .skip .expect fun _ => (Covers.when? .accept h.expression).bind fun returns => ?_
  exact (block_covers h blocks).bind fun body => .skip .spanFrom fun span =>
    .node (by simp [Node.parts, Stmt.parts, ← List.map_eq_flatMap, or_left_comm])

theorem classDef_covers {decorators : List Expr} :
    Covers k.hole (some k) (decorators.map .expr) (classDef b k decorators) fun s =>
      [.stmt s] := by
  unfold classDef
  refine .skip .here fun start => .skip .expect fun _ => .skip .name fun name => ?_
  refine .skip .accept fun open' => .ite ((arguments_covers h).bind ?rest) (.bind .leaf ?rest)
  rintro ⟨bases, keywords⟩
  refine (block_covers h blocks).bind fun body => .skip .spanFrom fun span => ?_
  exact .node (by simp [Node.parts, Stmt.parts])

theorem decorated_covers : Covers k.hole (some k) [] (decorated b k) fun s => [.stmt s] := by
  have one : Covers k.hole (some k) [] (decorator k) fun e => [.expr e] :=
    (namedExpression_covers h).bind fun e => lineEnd_covers.skip fun _ => .pure fun _ => id
  unfold decorated
  refine (Covers.many (.when? .accept one)).seq fun decorators => .look fun s => ?_
  rw [← List.map_eq_flatMap]
  split
  · exact functionDef_covers h blocks s
  · exact classDef_covers h blocks s
  · exact Covers.unexpected s

theorem exceptHandler_covers :
    Covers k.hole (some k) [] (exceptHandler b k) fun handler => [.handler handler] := by
  have handled : Covers k.hole (some k) [] (handled k) fun both => both.1.toList.map .expr := by
    refine .skip .isNext fun bare => .ite .leaf (h.expression.bind fun type => ?_)
    exact .skip (.whenNone .accept .name) fun name => .pure fun _ => id
  unfold exceptHandler
  refine .skip .here fun start => .skip .expect fun _ => handled.bind fun both => ?_
  exact (block_covers h blocks).bind fun body => .skip .spanFrom fun span =>
    .node (by simp [Node.parts])

theorem tryStatement_covers :
    Covers k.hole (some k) [] (tryStatement b k) fun s => [.stmt s] := by
  have optional := optionalBlock_covers h blocks
  unfold tryStatement
  refine .skip .here fun start => .skip .expect fun _ => (block_covers h blocks).bind fun body => ?_
  refine (Covers.many (.when? .isNext (exceptHandler_covers h blocks))).bind fun handlers => ?_
  refine (optional .elseKw).bind fun other => (optional .finallyKw).bind fun final => ?_
  refine .ite .unexpected (.skip .spanFrom fun span => .node ?_)
  simp [Node.parts, Stmt.parts, ← List.map_eq_flatMap, or_left_comm]

theorem statement_covers :
    Covers k.hole (some k) [] (statement b k) fun body => body.map .stmt := by
  have one {rule : Rule Stmt} {s : Stream}
      (h : CoversAt k.hole (some k) [] rule s fun s => [.stmt s]) :
      CoversAt k.hole (some k) [] (do return [← rule]) s fun body => body.map .stmt := by
    refine h.bind fun s t => Covers.pure (fun q inside => ?_) t
    exact inside
  unfold statement
  refine .look fun s => ?_
  split
  · rename_i found
    exact one (ifStatement_covers h blocks (by rw [found]; rfl))
  · exact one (whileStatement_covers h blocks s)
  · exact one (forStatement_covers h blocks s)
  · exact one (withStatement_covers h blocks s)
  · exact one (functionDef_covers h blocks s)
  · exact one (classDef_covers h blocks s)
  · exact one (tryStatement_covers h blocks s)
  · exact one (decorated_covers h blocks s)
  · exact simpleStatements_covers h s

end

/-! ### Whole scripts -/

theorem statementWithin_covers (h : KnotCovers (some k) k) (size : Nat) :
    BlocksCovers ⟨statementWithin k size, branchWithin k size⟩ k := by
  induction size with
  | zero =>
    refine ⟨?_, fun s _ => ?_⟩
    · simp only [statementWithin]
      exact .unexpected
    · simp only [branchWithin]
      exact Covers.unexpected s
  | succ size ih =>
    refine ⟨?_, fun s plain => ?_⟩
    · simp only [statementWithin]
      exact statement_covers h ih
    · simp only [branchWithin]
      exact ifStatement_covers h ih plain

theorem script_covers (h : KnotCovers (some k) k) {size : Nat} :
    Covers k.hole (some k) [] (script k size) fun m => m.body.map .stmt := by
  have line : Covers k.hole (some k) [] (scriptLine k size) fun body? =>
      body?.toList.flatMap fun body => body.map .stmt := by
    refine .look fun s => ?_
    split
    · exact Covers.leaf s
    · rename_i found
      exact takenKind found rfl fun _ => .leaf
    · exact Covers.map ((statementWithin_covers h (size + 1)).statement.mono (by simp)) s
  unfold script
  exact (Covers.many line).bind fun lines => .pure (by simp [List.map_flatten, List.flatMap])

end Grammar

end ScoreScript.Script
