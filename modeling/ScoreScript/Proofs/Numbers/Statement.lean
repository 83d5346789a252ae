import ScoreScript.Proofs.Numbers.Expression
import ScoreScript.Proofs.Placing.Statement

/-!
The rules for statements keep numbers small. So do those for whole scripts, and as the tokens of a
text have small numbers only, everything in a script that the sandbox accepts has
(`Module.small_of_accepted`).
-/

namespace ScoreScript.Script

/-! ### Targets -/

mutual

/-- In what is stored to there is no number, or else something that is not simple. -/
theorem Expr.toTarget_modest {use : Use} : (e : Expr) → ∀ {target : Expr},
    e.toTarget use = .ok target → (Node.expr target).Modest
  | .name id _ span, target, found => by
    cases found
    exact Node.modest_of_parts trivial (List.forall_mem_nil _)
  | .tuple items _ span, target, found => by
    rw [toTarget] at found
    obtain ⟨targets, found', ⟨⟩⟩ := ok_of_bind found
    exact Grammar.tuple_modest (toTargets_modest items found')
  | .member .., target, found | .subscript .., target, found => by
    cases found
    exact Node.modest_of_foreign rfl
  | .starred value _ span, target, found => by
    rw [toTarget] at found
    obtain ⟨inner, -, ⟨⟩⟩ := ok_of_bind found
    exact Node.modest_of_foreign rfl
  | .list items _ span, target, found => by
    rw [toTarget] at found
    obtain ⟨inner, -, ⟨⟩⟩ := ok_of_bind found
    exact Node.modest_of_foreign rfl
  | .constant .., _, found | .set .., _, found | .dict .., _, found
  | .call .., _, found | .slice .., _, found | .unary .., _, found
  | .binary .., _, found | .boolean .., _, found | .compare .., _, found
  | .lambda .., _, found | .conditional .., _, found | .named .., _, found
  | .listComp .., _, found | .setComp .., _, found | .dictComp .., _, found
  | .generator .., _, found | .joined .., _, found | .formatted .., _, found
  | .await .., _, found | .yield .., _, found | .yieldFrom .., _, found => by
    cases found

theorem Expr.toTargets_modest {use : Use} : (items : List Expr) → ∀ {targets : List Expr},
    toTargets use items = .ok targets → ∀ e ∈ targets, (Node.expr e).Modest
  | [], targets, found => by
    cases found
    exact List.forall_mem_nil _
  | first :: rest, targets, found => by
    rw [toTargets] at found
    obtain ⟨target, first', found⟩ := ok_of_bind found
    obtain ⟨others, rest', ⟨⟩⟩ := ok_of_bind found
    exact List.forall_mem_cons.2 ⟨toTarget_modest first first', toTargets_modest rest rest'⟩

end

namespace Grammar

open Rule

/-- All statements of a body have small numbers, if their forms are simple. -/
def BodyModest (body : List Stmt) : Prop :=
  ∀ s ∈ body, (Node.stmt s).Modest

variable {k : Knot} {b : Blocks} {start : Pos}

theorem bodyModest_flatten {bodies : List (List Stmt)} (all : ∀ body ∈ bodies, BodyModest body) :
    BodyModest bodies.flatten := by
  intro s member
  obtain ⟨body, listed, inside⟩ := List.mem_flatten.1 member
  exact all body listed s inside

/-- A statement is read whose numbers are small if its forms are simple. -/
abbrev StmtModest (rule : Rule Stmt) : Prop :=
  Delivers rule fun s => (Node.stmt s).Modest

theorem stmtModest_of_foreign {rule : Rule Stmt} (h : Foreign rule fun s => [.stmt s]) :
    StmtModest rule := by
  intro n s e t _ done simple
  obtain ⟨q, member, outside⟩ := h n s e t done
  exact absurd (List.mem_singleton.1 member ▸ simple) outside

/-! ### Statements that fit on a line -/

section

variable (h : KnotModest k)
include h

/-- Of assignments nothing is simple. -/
theorem expressionStatement_modest : StmtModest (expressionStatement k start) := by
  have alone {first : Expr} (modest : (Node.expr first).Modest) :
      StmtModest (do return Stmt.expr first (← spanFrom start)) :=
    .skip .spanFrom fun _ =>
      .pure (Node.modest_of_parts trivial (List.forall_mem_singleton.2 modest))
  refine .bind (expressions_parallel h.onward) (expressions_modest h) fun first modest =>
    .look fun kind _ => ?_
  split
  · exact stmtModest_of_foreign (.bind fun read => .bind fun _ => .stmt rfl)
  · exact stmtModest_of_foreign (.bind fun _ => .bind fun _ => .bind fun _ => .bind fun _ =>
      .bind fun _ => .stmt rfl)
  · split
    · exact stmtModest_of_foreign (.bind fun _ => .bind fun _ => .bind fun _ => .bind fun _ =>
        .stmt rfl)
    · exact alone modest
  · exact alone modest

theorem smallStatement_modest : StmtModest (smallStatement k) := by
  refine .skip .here fun start => .look fun kind _ => ?_
  split
  · exact .skip .take fun _ => .skip .spanFrom fun _ =>
      .pure (Node.modest_of_parts trivial (List.forall_mem_nil _))
  iterate 2 exact stmtModest_of_foreign (.bind fun _ => .bind fun _ => .stmt rfl)
  · exact stmtModest_of_foreign (.bind fun _ => .bind fun _ => .bind fun _ => .stmt rfl)
  · exact stmtModest_of_foreign (.bind fun _ => .bind fun _ => .bind fun _ => .bind fun _ =>
      .stmt rfl)
  iterate 2
    exact stmtModest_of_foreign (.bind fun _ => .bind fun _ => .bind fun _ => .stmt rfl)
  · exact stmtModest_of_foreign (.bind fun _ => .bind fun _ => .bind fun _ => .bind fun _ =>
      .stmt rfl)
  iterate 2
    exact stmtModest_of_foreign (.bind fun _ => .bind fun _ => .bind fun _ => .stmt rfl)
  · exact stmtModest_of_foreign (.bind fun _ => .bind fun _ => .bind fun _ => .bind fun _ =>
      .bind fun _ => .bind fun _ => .stmt rfl)
  · exact expressionStatement_modest h

theorem furtherStatement_modest :
    Delivers (furtherStatement k) fun s? => ∀ s ∈ s?, (Node.stmt s).Modest := by
  refine .skip .accept fun more => .ite (.look fun kind _ => ?_) (.pure forall_mem_none)
  split
  iterate 2 exact .pure forall_mem_none
  exact .map (smallStatement_modest h) fun s => forall_mem_some (P := fun s => (Node.stmt s).Modest)

theorem simpleStatements_modest : Delivers (simpleStatements k) BodyModest := by
  have further := furtherStatement_parallel h.onward
  refine .bind (smallStatement_parallel h.onward) (smallStatement_modest h) fun first modest =>
    .bind (.many further) (.many further (furtherStatement_modest h)) fun rest all =>
      .skip lineEnd_parallel fun _ => .pure ?_
  exact List.forall_mem_cons.2 ⟨modest, all⟩

end

/-! ### Statements with blocks -/

/-- The rules that a block may come back to give no token back and keep numbers small. -/
structure BlocksModest (b : Blocks) : Prop where
  onward : Blocks.Parallel (fun _ rule _ => Forward rule) b b
  statement : Delivers b.statement BodyModest

section

variable (blocks : BlocksModest b)
include blocks

theorem blockLine_modest :
    Delivers (blockLine b) fun body? => ∀ body ∈ body?, BodyModest body := by
  unfold blockLine
  refine .look fun kind _ => ?_
  split
  · exact .skip .take fun _ => .pure forall_mem_none
  · exact .pure forall_mem_none
  · exact .skip .take fun _ => .pure (forall_mem_some (List.forall_mem_nil _))
  · exact .map blocks.statement fun _ => forall_mem_some

theorem indentedBlock_modest : Delivers (indentedBlock b) BodyModest := by
  have line := blockLine_parallel blocks.onward
  unfold indentedBlock
  refine .look fun kind _ => ?_
  split
  · exact .skip .take fun _ => .bind (.many line) (.many line (blockLine_modest blocks))
      fun lines all => .pure (bodyModest_flatten all)
  · exact .unexpected

variable (h : KnotModest k)
include h

theorem block_modest : Delivers (block b k) BodyModest := by
  refine .skip .expect fun _ => .nested (.look fun kind _ => ?_)
  split
  · exact .skip .take fun _ => indentedBlock_modest blocks
  · exact simpleStatements_modest h

omit blocks in
theorem withItem_modest : Delivers (withItem k) fun i => (Node.item i).Modest := by
  have target : Modest (itemTarget k) :=
    .skip (starredOperand_parallel h.onward) fun e => .lift fun _ => e.toTarget_modest
  refine .skip .here fun start => .bind h.onward.expression h.expression fun context modest =>
    .bind (.when? .accept (itemTarget_parallel h.onward)) (.when? .accept target)
      fun target? known => .skip .spanFrom fun span => .pure ?_
  refine Node.modest_of_parts trivial (List.forall_mem_cons.2 ⟨modest, ?_⟩)
  exact List.forall_mem_map.2 fun e member => known e (Option.mem_toList.1 member)

theorem withStatement_modest : StmtModest (withStatement b k) := by
  have item := withItem_parallel h.onward
  refine .skip .here fun start => .skip .expect fun _ =>
    .bind (.separated item) (.separated item (withItem_modest h)) fun items all =>
      .bind (block_parallel h.onward blocks.onward) (block_modest blocks h) fun body modest =>
        .skip .spanFrom fun span => .pure ?_
  exact Node.modest_of_parts trivial
    (List.forall_mem_append.2 ⟨List.forall_mem_map.2 all, List.forall_mem_map.2 modest⟩)

/-- Of the statements with blocks only `with` is simple. -/
theorem statement_modest : Delivers (statement b k) BodyModest := by
  have other {rule : Rule Stmt} (foreign : Foreign rule fun s => [.stmt s]) :
      Delivers (do return [← rule]) BodyModest := by
    intro n s body t small done
    obtain ⟨⟨stmt, t⟩, read, ⟨⟩⟩ := ok_of_bind (show rule n s >>= _ = .ok (body, t) from done)
    exact List.forall_mem_singleton.2 (stmtModest_of_foreign foreign n s stmt t small read)
  refine .look fun kind _ => ?_
  split
  iterate 3
    refine other (Foreign.bind fun _ => ?_)
    repeat refine .bind fun _ => ?_
    exact .stmt rfl
  · exact .bind (withStatement_parallel h.onward blocks.onward) (withStatement_modest blocks h)
      fun _ modest => .pure (List.forall_mem_singleton.2 modest)
  · exact other functionDef_foreign
  · exact other classDef_foreign
  · refine other (Foreign.bind fun _ => ?_)
    repeat refine .bind fun _ => ?_
    exact .ite .unexpected (.bind fun _ => .stmt rfl)
  · refine other (.bind fun _ => .bind fun _ => ?_)
    split
    · exact functionDef_foreign
    · exact classDef_foreign
    · exact .unexpected
  · exact simpleStatements_modest h

end

/-- Each round of the circle keeps numbers small. -/
theorem statementWithin_modest (h : KnotModest k) (size : Nat) :
    BlocksModest ⟨statementWithin k size, branchWithin k size⟩ := by
  have onward := within_parallel h.onward
  induction size with
  | zero =>
    refine ⟨onward 0, ?_⟩
    simp only [statementWithin]
    exact .unexpected
  | succ size ih =>
    refine ⟨onward (size + 1), ?_⟩
    simp only [statementWithin]
    exact statement_modest ih h

theorem script_modest (h : KnotModest k) (size : Nat) :
    Delivers (script k size) fun m => BodyModest m.body := by
  have line : Delivers (scriptLine k size) fun body? => ∀ body ∈ body?, BodyModest body := by
    refine .look fun kind _ => ?_
    split
    · exact .pure forall_mem_none
    · exact .skip .take fun _ => .pure (forall_mem_some (List.forall_mem_nil _))
    · exact .map (statementWithin_modest h (size + 1)).statement fun _ => forall_mem_some
  have onward : Onward (scriptLine k size) := scriptLine_parallel h.onward
  exact .bind (.many onward) (.many onward line) fun lines all => .pure (bodyModest_flatten all)

end Grammar

/-! ### Whole scripts -/

/-- Every number in an accepted script has a place in 63 bits. -/
theorem Module.small_of_accepted {limits : Limits} {text : String} {m : Module}
    (read : Module.ofText limits text = .ok m) (accepted : m.verdict.isAccepted = true) :
    ∀ s ∈ m.body, (Node.stmt s).Small := by
  have simple := simple_of_accepted accepted
  obtain ⟨_, -, read⟩ := ok_of_bind read
  obtain ⟨tokens, lexed, read⟩ := ok_of_bind read
  obtain ⟨⟨m', s⟩, parsed, ⟨⟩⟩ := ok_of_bind read
  have modest := Grammar.script_modest (Grammar.within_modest _) _ _ _ _ _
    (tokens_small lexed : (Stream.ofTokens tokens).Small) parsed
  exact fun s member => modest s member (simple s member)

end ScoreScript.Script
