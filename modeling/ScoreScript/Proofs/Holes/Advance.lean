import ScoreScript.Proofs.Grammar.Room
import ScoreScript.Proofs.Holes.Statement
import ScoreScript.Proofs.Nesting.Statement

/-!
Nothing is read from no token. Every expression and every statement takes a token at least, so that
a script, which is read line by line for as long as that takes tokens, is read to its end
(`Grammar.script_ends`).
-/

namespace ScoreScript.Script

namespace Rule

variable {α β : Type} {n : Nesting} {s : Stream} {rule : Rule α}

/-- What the rule reads takes a token at least. -/
def Advances (rule : Rule α) : Prop :=
  ∀ n s, Ensures n rule s fun _ t => t.size < s.size

/-- A rule that covers the tokens it uses gives none back. -/
theorem Covers.yields {hole : Nat → String → Except Error Expr} {whole : Option Knot}
    {owed : List Node} {nodes : α → List Node} (h : Covers hole whole owed rule nodes) :
    Yields n rule fun _ => True := by
  intro s a t done
  obtain ⟨used, split, -⟩ := h s n a t done
  rw [s.size_eq, t.size_eq, split, List.length_append]
  exact ⟨Nat.le_add_left _ _, trivial⟩

/-- Where there is a token, taking it leaves less. -/
theorem Ensures.taken {next : Token TokenKind → Rule β} (present : s.current.kind.isEof = false)
    (h : ∀ t n, Yields n (next t) fun _ => True) :
    Ensures n (Rule.take >>= next) s fun _ t => t.size < s.size := by
  refine Ensures.bind .take fun token t _ less => ?_
  intro b u done
  have shorter := (h token n t b u done).1
  exact ⟨shorter, Nat.lt_of_le_of_lt shorter (less present)⟩

namespace Advances

theorem bind {next : α → Rule β} (h : Advances rule)
    (h' : ∀ a n, Yields n (next a) fun _ => True) : Advances (rule >>= next) := by
  refine fun n s => (h n s).bind fun a t _ less => ?_
  intro b u done
  have shorter := (h' a n t b u done).1
  exact ⟨shorter, Nat.lt_of_le_of_lt shorter less⟩

theorem skip {next : α → Rule β} (h : ∀ n, Yields n rule fun _ => True)
    (h' : ∀ a, Advances (next a)) : Advances (rule >>= next) :=
  fun n s => (h n s).bind fun a t shorter _ => (h' a n t).mono fun _ _ less =>
    Nat.lt_of_lt_of_le less shorter

theorem here {next : Pos → Rule β} (h : ∀ start, Advances (next start)) :
    Advances (Rule.here >>= next) :=
  skip (fun _ => .here) h

theorem ite {c : Prop} [Decidable c] {first second : Rule α} (h : Advances first)
    (h' : Advances second) : Advances (if c then first else second) := by
  split
  · exact h
  · exact h'

theorem map {f : α → β} (h : Advances rule) : Advances (f <$> rule) :=
  h.bind fun _ _ => .pure trivial

theorem nested (h : Advances rule) : Advances (nested rule) := by
  intro n s a t done
  unfold Rule.nested at done
  split at done
  · exact h _ s a t done
  · cases done

theorem unexpected {wanted : String} : Advances (unexpected wanted : Rule α) :=
  fun _ _ _ _ done => nomatch done

theorem look {next : TokenKind → Rule β}
    (h : ∀ s n, Ensures n (next s.current.kind) s fun _ t => t.size < s.size) :
    Advances (look >>= next) :=
  fun n s => h s n

theorem expect {mark : Mark} {next : Unit → Rule β} (h : ∀ n, Yields n (next ()) fun _ => True) :
    Advances (expect mark >>= next) :=
  bind (fun _ _ => .expect) fun _ => h

theorem accept {mark : Mark} {next : Bool → Rule β}
    (h : ∀ n, Yields n (next true) fun _ => True) (h' : Advances (next false)) :
    Advances (accept mark >>= next) := by
  refine fun n s => Ensures.bind .accept ?_
  rintro _ t - (⟨rfl, -, less⟩ | ⟨rfl, -, rfl⟩)
  · intro b u done
    have shorter := (h n t b u done).1
    exact ⟨shorter, Nat.lt_of_le_of_lt shorter less⟩
  · exact h' n t

end Advances

end Rule

namespace Grammar

open Rule

/-- What the rules that are come back to read takes a token at least. -/
structure KnotAdvances (k : Knot) : Prop where
  expression : Advances k.expression
  operation : ∀ min, Advances (k.operation min)
  factor : Advances k.factor

variable {k : Knot} {b : Blocks} {n : Nesting}

/-- The first literal is read, as it is what comes. -/
theorem strings_advances {s : Stream} {value : String} {kind : StringKind}
    (found : s.current.kind = .string value kind) :
    Ensures n (strings k) s fun _ t => t.size < s.size := by
  unfold strings
  refine Ensures.bind .here ?_
  rintro start s' - rfl
  refine Ensures.bind (P := fun _ u => u.size < s'.size)
    (Ensures.loop (I := fun _ u => u = s' ∨ u.size < s'.size) (fun j u progress => ?_) (.inl rfl))
    fun j t _ less => ?_
  · refine Ensures.bind .look ?_
    rintro _ u - ⟨rfl, rfl⟩
    split
    · rename_i value kind next
      intro j? t done
      obtain ⟨⟨j', v⟩, joined, ⟨⟩⟩ := ok_of_bind
        (show joinLiteral k j value kind u.current.span n u.advance >>= _ = .ok (j?, t) from done)
      obtain ⟨rfl, -⟩ := joinLiteral_fills joined
      have less : u.advance.size < u.size := u.size_advance_lt (by rw [next]; rfl)
      refine ⟨Nat.le_of_lt less, fun none => absurd none (Option.some_ne_none _), ?_⟩
      refine forall_mem_some ⟨.inr ?_, .inl less⟩
      rcases progress with rfl | shorter
      · exact less
      · exact Nat.lt_trans less shorter
    · rename_i other
      refine .pure ⟨fun _ => progress.resolve_left ?_, forall_mem_none⟩
      rintro rfl
      exact other _ _ found
  · refine Ensures.bind .spanFrom ?_
    rintro span t - rfl
    exact .pure less

section

variable {whole : Option Knot} (h : KnotCovers whole k)
include h

theorem atom_advances : Advances (atom k) := by
  unfold atom
  refine .here fun start => .look fun s n => ?_
  split <;> rename_i found
  · exact .taken (by rw [found]; rfl) fun _ _ => .pure trivial
  · exact strings_advances found
  · exact .taken (by rw [found]; rfl) fun _ _ => (Covers.nested (parenthesized_covers h)).yields
  · exact .taken (by rw [found]; rfl) fun _ _ => (Covers.nested (listDisplay_covers h)).yields
  · exact .taken (by rw [found]; rfl) fun _ _ => (Covers.nested (braceDisplay_covers h)).yields
  · split
    · rename_i constant
      refine .taken ?_ fun _ _ => .pure trivial
      cases kind : s.current.kind <;> first | rfl | (rw [kind] at constant; cases constant)
    · exact Advances.unexpected n s

theorem primary_advances : Advances (primary k) :=
  .here fun _ => (atom_advances h).bind fun _ _ =>
    (Covers.loop (fun e => [.expr e]) fun _ => postfixed_covers h).yields

theorem power_advances : Advances (power k) := by
  have raised {n : Nesting} {start : Pos} (base : Expr) : Yields n
      (do if ← accept (.op .power) then
            let exponent ← nested k.factor
            return Expr.binary base .pow exponent (← spanFrom start)
          else return base) fun _ => True :=
    .skip .accept fun _ => .ite ((Covers.nested h.factor).yields.skip fun _ =>
      .skip .spanFrom fun _ => .pure trivial) (.pure trivial)
  refine .here fun start => .skip (fun _ => .accept) fun awaits => .ite ?_ ?_
  · exact (primary_advances h).bind fun _ _ => .skip .spanFrom fun _ =>
      .skip (.pure trivial) fun base => raised base
  · exact (primary_advances h).bind fun base _ => raised base

theorem factor_advances : Advances (factor k) := by
  unfold factor
  refine .here fun start => .look fun s n => ?_
  split
  · rename_i op sign
    refine .taken ?_ fun _ _ => (Covers.nested h.factor).yields.skip fun _ =>
      .skip .spanFrom fun _ => .pure trivial
    cases kind : s.current.kind <;> first | rfl | (rw [kind] at sign; cases sign)
  · exact power_advances h n s

theorem firstOperand_advances {min : Level} : Advances (firstOperand k min) := by
  unfold firstOperand
  refine .here fun start => ?_
  split
  · refine .accept (fun n => ?_) (factor_advances h)
    exact (Covers.nested (h.operation _)).yields.skip fun _ => .skip .spanFrom fun _ =>
      .pure trivial
  · exact factor_advances h

theorem operation_advances {min : Level} : Advances (operation k min) :=
  .here fun _ => (firstOperand_advances h).bind fun _ _ =>
    (Covers.loop (fun e => [.expr e]) fun _ => extend_covers h).yields

theorem lambda_advances : Advances (lambda k) :=
  .here fun _ => .expect fun _ => .skip (parameters_covers h).yields fun _ =>
    .skip .expect fun _ => h.expression.yields.skip fun _ => .skip .spanFrom fun _ => .pure trivial

theorem expression_advances : Advances (expression k) := by
  refine .nested (.skip (fun _ => .isNext) fun _ => .ite (lambda_advances h) (.here fun _ => ?_))
  refine (operation_advances h).bind fun _ _ => .skip .accept fun _ => .ite ?_ (.pure trivial)
  exact (operation_covers h).yields.skip fun _ => .skip .expect fun _ =>
    h.expression.yields.skip fun _ => .skip .spanFrom fun _ => .pure trivial

end

theorem knot_advances {hole : Nat → String → Except Error Expr} (size : Nat) :
    KnotAdvances (knot hole size) := by
  have h : KnotCovers none (rounds hole size) := within_covers size
  refine ⟨?_, fun min => ?_, ?_⟩
  · simp only [knot, expressionWithin]
    exact expression_advances h
  · simp only [knot, operationWithin]
    exact operation_advances h
  · simp only [knot, factorWithin]
    exact factor_advances h

/-! ### Statements that fit on a line -/

theorem spanned_yields {α : Type} {start : Pos} {f : Span → α} :
    Yields n (do return f (← spanFrom start)) fun _ => True :=
  .skip .spanFrom fun _ => .pure trivial

theorem importFrom_advances {start : Pos} : Advances (importFrom start) := by
  refine .expect fun n => importLevel_yields.skip fun level => ?_
  have present : Yields n (return !(← isNext (.word .importKw))) fun _ => True :=
    .skip .isNext fun _ => .pure trivial
  refine (Yields.when? present dottedName_yields).bind fun path _ => .skip .expect fun _ => ?_
  exact importNames_yields.skip fun names => spanned_yields

section

variable (h : KnotCovers (some k) k) (a : KnotAdvances k)
include h a

theorem expressions_advances : Advances (expressions k) := by
  have operand : Advances (starredOperand k) :=
    .here fun _ => .accept (fun _ => (h.operation _).yields.skip fun _ => spanned_yields)
      (a.operation _)
  have item : Advances (starredExpression k) :=
    .skip (fun _ => .isNext) fun _ => .ite operand a.expression
  refine .here fun start => item.bind fun first n => .skip .isNext fun more => .ite ?_ (.pure trivial)
  exact (Covers.furtherItems isExpressionEnd_covers (starredExpression_covers h)).yields.skip
    fun items => spanned_yields

theorem expressionStatement_advances {start : Pos} : Advances (expressionStatement k start) := by
  have value : ∀ n, Yields n (assignedValue k) fun _ => True := fun n =>
    (assignedValue_covers h).yields
  have target {e : Expr} {use : Use} : ∀ n, Yields n (lift (e.toTarget use)) fun _ => True :=
    fun n => .lift fun _ _ => trivial
  unfold expressionStatement
  refine (expressions_advances h a).bind fun first n => .skip .look fun kind => ?_
  split
  · exact (Covers.loop assigned fun _ => furtherTarget_covers h).yields.skip fun _ => spanned_yields
  · refine .skip .take fun _ => (target n).skip fun _ => h.expression.yields.skip fun _ => ?_
    exact (Covers.when? .accept (assignedValue_covers h)).yields.skip fun _ => spanned_yields
  · split
    · exact .skip .take fun _ => (target n).skip fun _ => (value n).skip fun _ => spanned_yields
    · exact spanned_yields
  · exact spanned_yields

theorem smallStatement_advances : Advances (smallStatement k) := by
  unfold smallStatement
  refine .here fun start => .look fun s n => ?_
  split <;> rename_i found
  iterate 3 exact .taken (by rw [found]; rfl) fun _ _ => spanned_yields
  · have present : Covers k.hole (some k) [] (return !(← isStatementEnd)) fun _ => [] :=
      isStatementEnd_covers.skip fun _ => .leaf
    exact .taken (by rw [found]; rfl) fun _ _ =>
      (Covers.when? present (expressions_covers h)).yields.skip fun _ => spanned_yields
  · have targets {first : Expr} : Covers k.hole (some k) [.expr first]
        (furtherItems isStatementEnd (deletedTarget k) first) fun items =>
          items.flatMap fun e => [.expr e] :=
      .furtherItems isStatementEnd_covers (deletedTarget_covers h)
    exact .taken (by rw [found]; rfl) fun _ _ => (deletedTarget_covers h).yields.skip fun _ =>
      targets.yields.skip fun _ => spanned_yields
  iterate 2
    exact .taken (by rw [found]; rfl) fun _ _ => (Yields.separated .name).bind fun _ _ =>
      spanned_yields
  · exact .taken (by rw [found]; rfl) fun _ _ => h.expression.yields.skip fun _ =>
      (Covers.when? .accept h.expression).yields.skip fun _ => spanned_yields
  · exact .taken (by rw [found]; rfl) fun _ _ => (raised_covers h).yields.skip fun _ =>
      spanned_yields
  · exact .taken (by rw [found]; rfl) fun _ _ =>
      (Yields.separated (importName_yields dottedName_yields)).bind fun _ _ => spanned_yields
  · exact importFrom_advances n s
  · exact expressionStatement_advances h a n s

theorem simpleStatements_advances : Advances (simpleStatements k) :=
  (smallStatement_advances h a).bind fun _ _ =>
    (Covers.many (furtherStatement_covers h)).yields.skip fun _ =>
      lineEnd_yields.skip fun _ => .pure trivial

/-! ### Statements with blocks -/

variable (blocks : BlocksCovers b k)
include blocks

omit a in
theorem functionDef_advances {decorators : List Expr} :
    Advances (functionDef b k decorators) := by
  refine .here fun start => .expect fun n => .skip .name fun name => .skip .expect fun _ => ?_
  have params {n : Nesting} : Yields n (parameters k true (.op .rightParen)) fun _ => True :=
    (Covers.items .isNext (paramEntry_covers h)).yields.skip fun _ => .pure trivial
  refine params.skip fun params => ?_
  refine .skip .expect fun _ => (Covers.when? .accept h.expression).yields.skip fun returns => ?_
  exact (block_covers h blocks).yields.skip fun body => spanned_yields

omit a in
theorem classDef_advances {decorators : List Expr} : Advances (classDef b k decorators) := by
  have body {n : Nesting} := (block_covers h blocks).yields (n := n)
  refine .here fun start => .expect fun n => .skip .name fun name => .skip .accept fun open' => ?_
  refine .ite ((arguments_covers h).yields.skip fun _ => ?_) (.skip (.pure trivial) fun _ => ?_) <;>
    exact body.skip fun _ => spanned_yields

omit a in
theorem decorated_advances : Advances (decorated b k) := by
  have one {n : Nesting} : Yields n (decorator k) fun _ => True :=
    (namedExpression_covers h).yields.skip fun _ => lineEnd_yields.skip fun _ => .pure trivial
  refine .skip (fun n => (Yields.many (.when? .accept one)).mono fun _ _ => trivial) ?_
  refine fun decorators => .look fun s n => ?_
  split
  · exact functionDef_advances h blocks n s
  · exact classDef_advances h blocks n s
  · exact Advances.unexpected n s

omit a in
theorem ifStatement_advances {s : Stream} (present : s.current.kind.isEof = false) :
    Ensures n (ifStatement b k) s fun _ t => t.size < s.size := by
  refine Ensures.bind .here ?_
  rintro start s - rfl
  refine .taken present fun _ n => (namedExpression_covers h).yields.skip fun _ => ?_
  exact (block_covers h blocks).yields.skip fun _ => (otherwise_covers h blocks).yields.skip fun _ =>
    spanned_yields

/-- A statement with blocks begins with its keyword. -/
theorem statement_advances : Advances (statement b k) := by
  have body {n : Nesting} := (block_covers h blocks).yields (n := n)
  have test {n : Nesting} := (namedExpression_covers h).yields (n := n)
  have optional {n : Nesting} {word : Keyword} := (optionalBlock_covers h blocks word).yields (n := n)
  have one {rule : Rule Stmt} (h : Advances rule) : Advances (do return [← rule]) :=
    h.bind fun _ _ => .pure trivial
  unfold statement
  refine .look fun s n => ?_
  split <;> rename_i found
  · refine (ifStatement_advances h blocks (by rw [found]; rfl)).bind fun _ t _ less => ?_
    exact .pure less
  · refine one (.here fun start => .expect fun _ => test.skip fun _ => body.skip fun _ => ?_) n s
    exact optional.skip fun _ => spanned_yields
  · refine one (.here fun start => .expect fun _ => (loopTarget_covers h).yields.skip fun _ => ?_) n s
    exact .skip .expect fun _ => (expressions_covers h).yields.skip fun _ => body.skip fun _ =>
      optional.skip fun _ => spanned_yields
  · refine one (.here fun start => .expect fun _ => ?_) n s
    exact (Covers.separated (withItem_covers h)).yields.skip fun _ => body.skip fun _ =>
      spanned_yields
  · exact one (functionDef_advances h blocks) n s
  · exact one (classDef_advances h blocks) n s
  · refine one (.here fun start => .expect fun _ => body.skip fun _ => ?_) n s
    refine (Covers.many (.when? .isNext (exceptHandler_covers h blocks))).yields.skip fun _ => ?_
    exact optional.skip fun _ => optional.skip fun _ => .ite .unexpected spanned_yields
  · exact one (decorated_advances h blocks) n s
  · exact simpleStatements_advances h a n s

/-! ### Whole scripts -/

omit blocks in
/-- A script is read to its end. -/
theorem script_ends {size : Nat} {s : Stream} :
    Ensures n (script k size) s fun _ t => t.current.kind.isEof = true := by
  have line (s : Stream) : Ensures n (scriptLine k size) s fun body? t =>
      (body? = none → t.current.kind.isEof = true) ∧
        ∀ body ∈ body?, True ∧ True ∧ t.size < s.size := by
    refine Ensures.bind .look ?_
    rintro _ s - ⟨rfl, rfl⟩
    split <;> rename_i found
    · exact .pure ⟨fun _ => by rw [found]; rfl, forall_mem_none⟩
    · refine Ensures.bind .take fun _ t _ less =>
        .pure ⟨fun none => absurd none (Option.some_ne_none _), ?_⟩
      exact forall_mem_some ⟨trivial, trivial, less (by rw [found]; rfl)⟩
    · have statement : Advances (statementWithin k (size + 1)) := by
        simp only [statementWithin]
        exact statement_advances h a (statementWithin_covers h size)
      intro body? t done
      obtain ⟨⟨body, u⟩, read, ⟨⟩⟩ := ok_of_bind
        (show statementWithin k (size + 1) n s >>= _ = .ok (body?, t) from done)
      obtain ⟨shorter, less⟩ := statement n s _ _ read
      exact ⟨shorter, fun none => absurd none (Option.some_ne_none _),
        forall_mem_some ⟨trivial, trivial, less⟩⟩
  unfold script
  refine (Ensures.many (I := fun _ => True) (fun s _ => line s) trivial).bind fun lines t _ both => ?_
  exact .pure both.2

end

end Grammar

end ScoreScript.Script
