import ScoreScript.Proofs.Holes.Rule
import ScoreScript.Script.Grammar.Statement
import ScoreScript.Proofs.Grammar.Climbing
import ScoreScript.Proofs.Holes.Advance

/-!
What expressions begin with. No token that begins an expression begins any other statement, so that
expressions by themselves on a line are read as a statement.
-/

namespace ScoreScript.Script

namespace Grammar

/-- A token that expressions may begin with. -/
def startsExpression : TokenKind → Bool
  | .name _ | .int _ | .float _ | .string _ _ => true
  | .op .leftParen | .op .leftBracket | .op .leftBrace | .op .ellipsis => true
  | .op .minus | .op .plus | .op .tilde | .op .times => true
  | .keyword .noneKw | .keyword .trueKw | .keyword .falseKw => true
  | .keyword .awaitKw | .keyword .notKw | .keyword .lambdaKw => true
  | _ => false

end Grammar

namespace Rule

open Grammar

variable {α β : Type} {n : Nesting} {s : Stream} {rule other : Rule α}

/-- What the rule reads from the stream begins as an expression does. -/
def BeginsAt (s : Stream) (rule : Rule α) : Prop :=
  ∀ n r, rule n s = .ok r → startsExpression s.current.kind = true

def Begins (rule : Rule α) : Prop :=
  ∀ s, BeginsAt s rule

theorem BeginsAt.of_kind {kind : TokenKind} (found : s.current.kind = kind)
    (opens : startsExpression kind = true) : BeginsAt s rule := by
  intro n r done
  rwa [found]

namespace Begins

theorem first {next : α → Rule β} (h : Begins rule) : Begins (rule >>= next) := by
  intro s n r done
  obtain ⟨read, first, -⟩ := ok_of_bind (show rule n s >>= _ = .ok r from done)
  exact h s n read first

theorem here {next : Pos → Rule β} (h : ∀ start, Begins (next start)) :
    Begins (Rule.here >>= next) :=
  fun s n r done => h _ s n r done

theorem isNext {mark : Mark} {next : Bool → Rule β} (h : ∀ found, Begins (next found)) :
    Begins (Rule.isNext mark >>= next) :=
  fun s n r done => h _ s n r done

theorem look {next : TokenKind → Rule β} (h : ∀ s, BeginsAt s (next s.current.kind)) :
    Begins (look >>= next) :=
  h

theorem unexpected {wanted : String} : Begins (unexpected wanted : Rule α) :=
  fun _ _ _ failed => nomatch failed

theorem ite {c : Prop} [Decidable c] (h : Begins rule) (h' : Begins other) :
    Begins (if c then rule else other) := by
  split
  · exact h
  · exact h'

theorem nested (h : Begins rule) : Begins (nested rule) := by
  intro s n r done
  unfold Rule.nested at done
  split at done
  · exact h s _ r done
  · cases done

/-- A mark that expressions may begin with, or what they begin with otherwise. -/
theorem accept {mark : Mark} {next : Bool → Rule β}
    (opens : ∀ kind, Mark.ofKind? kind = some mark → startsExpression kind = true)
    (h : Begins (next false)) : Begins (accept mark >>= next) := by
  intro s n r done
  by_cases found : Mark.ofKind? s.current.kind = some mark
  · exact opens _ found
  · obtain ⟨read, first, rest⟩ := ok_of_bind (show Rule.accept mark n s >>= _ = .ok r from done)
    cases (accept_absent found).symm.trans first
    exact h s n r rest

end Begins

end Rule

namespace Grammar

open Rule

variable {k : Knot}

theorem startsExpression_of_op {kind : TokenKind} {sign : Operator}
    (opens : startsExpression (.op sign) = true) (found : Mark.ofKind? kind = some (.op sign)) :
    startsExpression kind = true := by
  rwa [kind_of_op found]

theorem startsExpression_of_word {kind : TokenKind} {word : Keyword}
    (opens : startsExpression (.keyword word) = true)
    (found : Mark.ofKind? kind = some (.word word)) : startsExpression kind = true := by
  rwa [kind_of_word found]

theorem atom_begins : Begins (atom k) := by
  unfold atom
  refine .here fun start => .look fun s => ?_
  split <;> rename_i found
  iterate 5 exact .of_kind found rfl
  · split
    · rename_i constant
      refine .of_kind rfl ?_
      unfold constantOf? at constant
      split at constant <;> first | (rename_i kind; rw [kind]; rfl) | cases constant
    · exact Begins.unexpected s

theorem factor_begins : Begins (factor k) := by
  have primary : Begins (primary k) := .here fun _ => atom_begins.first
  have power : Begins (power k) :=
    .here fun _ => .accept (fun _ => startsExpression_of_word rfl)
      (show Begins (Grammar.primary k >>= _) from primary.first)
  unfold factor
  refine .here fun start => .look fun s => ?_
  split
  · rename_i op sign
    refine .of_kind rfl ?_
    unfold UnaryOperator.ofKind? at sign
    split at sign <;> first | (rename_i kind; rw [kind]; rfl) | cases sign
  · exact power s

theorem operation_begins {min : Level} : Begins (operation k min) := by
  have first : Begins (firstOperand k min) := by
    unfold firstOperand
    refine .here fun start => ?_
    split
    · exact .accept (fun _ => startsExpression_of_word rfl) factor_begins
    · exact factor_begins
  exact .here fun _ => first.first

theorem expression_begins : Begins (expression k) := by
  have lambda : Begins (lambda k) := by
    refine .here fun start s n r done => ?_
    obtain ⟨read, first, -⟩ := ok_of_bind (show expect _ n s >>= _ = .ok r from done)
    exact startsExpression_of_word rfl (expect_ok first).1
  exact .nested (.isNext fun _ => .ite lambda (.here fun _ => operation_begins.first))

theorem expressions_begins {hole : Nat → String → Except Error Expr} {size : Nat} :
    Begins (expressions (knot hole size)) := by
  have whole : Begins (knot hole size).expression := by
    simp only [knot, expressionWithin]
    exact expression_begins
  have operand : Begins ((knot hole size).operation .bitOr) := by
    simp only [knot, operationWithin]
    exact operation_begins
  have starred : Begins (starredOperand (knot hole size)) :=
    .here fun _ => .accept (fun _ => startsExpression_of_op rfl) operand
  exact .here fun _ => Begins.first (.isNext fun _ => .ite starred whole)

end Grammar

/-!
Expressions alone in a text. Where nothing but ends of lines follows what has been read as
expressions, the text is a script of one statement, and that statement is what was read
(`Grammar.script_alone`).
-/

/-- A token that ends a line, or the text. -/
def TokenKind.endsLine : TokenKind → Bool
  | .newline | .eof => true
  | _ => false

/-- Nothing but ends of lines is left. -/
def Stream.IsBlank (s : Stream) : Prop :=
  ∀ t ∈ s.rest, t.kind.endsLine = true

namespace Stream

variable {s : Stream}

theorem IsBlank.advance (h : s.IsBlank) : s.advance.IsBlank := by
  unfold Stream.advance
  split
  · exact h
  · exact fun t inside => h t (List.mem_of_mem_tail inside)

theorem IsBlank.current (h : s.IsBlank) : s.current.kind.endsLine = true := by
  unfold Stream.current
  cases rest : s.rest with
  | nil => rfl
  | cons first others => exact h first (rest ▸ List.mem_cons_self)

end Stream

namespace Rule

variable {α β : Type} {n : Nesting} {s t : Stream} {rule : Rule α} {a : α}
  {P : α → Stream → Prop} {Q : β → Stream → Prop}

/-- The rule reads something from the stream, and that and what is left have the property. -/
def Gives (n : Nesting) (rule : Rule α) (s : Stream) (P : α → Stream → Prop) : Prop :=
  ∃ a t, rule n s = .ok (a, t) ∧ P a t

theorem map_of_ok {f : α → β} (done : rule n s = .ok (a, t)) :
    (f <$> rule) n s = .ok (f a, t) := by
  change rule n s >>= _ = _
  rw [done]
  rfl

namespace Gives

theorem pure (h : P a s) : Gives n (Pure.pure a) s P :=
  ⟨a, s, rfl, h⟩

/-- After a rule of which it is known what it reads. -/
theorem step {next : α → Rule β} (done : rule n s = .ok (a, t)) (h : Gives n (next a) t Q) :
    Gives n (rule >>= next) s Q := by
  obtain ⟨b, u, read, holds⟩ := h
  exact ⟨b, u, (bind_of_ok done).trans read, holds⟩

theorem bind {next : α → Rule β} (h : Gives n rule s P)
    (h' : ∀ a t, rule n s = .ok (a, t) → P a t → Gives n (next a) t Q) :
    Gives n (rule >>= next) s Q := by
  obtain ⟨a, t, done, holds⟩ := h
  exact .step done (h' a t done holds)

theorem look {next : TokenKind → Rule β} (h : Gives n (next s.current.kind) s Q) :
    Gives n (look >>= next) s Q :=
  h

theorem here {next : Pos → Rule β} (h : ∀ start, Gives n (next start) s Q) :
    Gives n (here >>= next) s Q :=
  h _

theorem spanFrom {start : Pos} {next : Span → Rule β} (h : ∀ span, Gives n (next span) s Q) :
    Gives n (spanFrom start >>= next) s Q :=
  h _

theorem take {next : Token TokenKind → Rule β} (h : Gives n (next s.current) s.advance Q) :
    Gives n (take >>= next) s Q :=
  h

end Gives

end Rule

namespace Grammar

open Rule

variable {k : Knot} {b : Blocks} {n : Nesting} {s t : Stream} {e : Expr}

section

variable (starts : startsExpression s.current.kind = true)
  (read : expressions k n s = .ok (e, t)) (ended : t.current.kind.endsLine = true)
include starts read ended

theorem smallStatement_alone :
    Rule.Gives n (smallStatement k) s fun stmt u => (∃ span, stmt = .expr e span) ∧ u = t := by
  have statement (start : Pos) : Rule.Gives n (expressionStatement k start) s fun stmt u =>
      (∃ span, stmt = .expr e span) ∧ u = t := by
    unfold expressionStatement
    refine .step read (.look ?_)
    split <;> rename_i found
    iterate 2
      rw [found] at ended
      cases ended
    · rw [found] at ended
      cases ended
    · exact .spanFrom fun span => .pure ⟨⟨span, rfl⟩, rfl⟩
  unfold smallStatement
  refine .here fun start => .look ?_
  split <;> first | exact statement start | (rename_i found; rw [found] at starts; cases starts)

theorem simpleStatements_alone (blank : t.IsBlank) :
    Rule.Gives n (simpleStatements k) s fun body u =>
      (∃ span, body = [.expr e span]) ∧ u.IsBlank := by
  have noMore : furtherStatement k n t = .ok (none, t) := by
    have other : Mark.ofKind? t.current.kind ≠ some (.op .semicolon) := by
      intro found
      rw [kind_of_op found] at ended
      cases ended
    exact bind_of_ok (accept_absent other)
  have rest : many (furtherStatement k) n t = .ok ([], t) :=
    bind_of_ok (loop_of_none (bind_of_ok noMore))
  unfold simpleStatements
  refine (smallStatement_alone starts read ended).bind ?_
  rintro _ u - ⟨⟨span, rfl⟩, same⟩
  rw [same]
  refine .step rest (.bind (P := fun _ u => u.IsBlank) (.look ?_) fun _ u _ left =>
    .pure ⟨⟨span, rfl⟩, left⟩)
  split <;> rename_i found
  · exact .take (.pure blank.advance)
  · exact .pure blank
  · cases kind : t.current.kind <;> rw [kind] at ended <;> contradiction

theorem statement_alone (blank : t.IsBlank) :
    Rule.Gives n (statement b k) s fun body u => (∃ span, body = [.expr e span]) ∧ u.IsBlank := by
  have alone := simpleStatements_alone starts read ended blank
  unfold statement
  refine .look ?_
  split <;> first | exact alone | (rename_i found; rw [found] at starts; cases starts)

end

/-- Lines without anything on them add nothing to a script. -/
theorem blankLines (k : Knot) (n : Nesting) (size : Nat) (lines : List (List Stmt))
    (blank : s.IsBlank) :
    Rule.Gives n (loop (fun lines => do return (← scriptLine k size).map (· :: lines)) lines) s
      fun lines' _ => lines'.reverse.flatten = lines.reverse.flatten := by
  induction length : s.size using Nat.strongRecOn generalizing lines s with
  | ind m ih =>
    have next := blank.current
    cases kind : s.current.kind <;> rw [kind] at next
    case newline =>
      have line : scriptLine k size n s = .ok (some [], s.advance) := by
        rw [scriptLine, look_bind, kind]
        rfl
      have less := s.size_advance_lt (by rw [kind]; rfl)
      obtain ⟨lines', t, done, same⟩ := ih _ (length ▸ less) ([] :: lines) blank.advance rfl
      refine ⟨lines', t, (loop_of_some (bind_of_ok line) less).trans done, ?_⟩
      simpa using same
    case eof =>
      have line : scriptLine k size n s = .ok (none, s) := by
        rw [scriptLine, look_bind, kind]
        rfl
      exact ⟨lines, s, loop_of_none (bind_of_ok line), rfl⟩
    all_goals cases next

/-- Expressions alone are a script. -/
theorem script_alone (size : Nat) (h : KnotCovers (some k) k) (a : KnotAdvances k)
    (starts : startsExpression s.current.kind = true)
    (read : expressions k n s = .ok (e, t)) (blank : t.IsBlank) :
    Rule.Gives n (script k size) s fun m _ => ∃ span, m = ⟨[.expr e span]⟩ := by
  have blocks := statementWithin_covers h size
  obtain ⟨_, u, first, ⟨span, rfl⟩, left⟩ := statement_alone
    (b := ⟨statementWithin k size, branchWithin k size⟩) starts read blank.current blank
  obtain ⟨-, less⟩ := statement_advances h a blocks n s _ _ first
  have line : Rule.Gives n (scriptLine k size) s fun body? v =>
      body? = some [.expr e span] ∧ v = u := by
    unfold scriptLine
    refine .look ?_
    split
    iterate 2
      rename_i found
      rw [found] at starts
      cases starts
    have within : statementWithin k (size + 1) n s = .ok ([.expr e span], u) := by
      simp only [statementWithin]
      exact first
    exact ⟨_, u, map_of_ok within, rfl, rfl⟩
  obtain ⟨_, _, line, rfl, rfl⟩ := line
  obtain ⟨lines, v, done, same⟩ := blankLines k n size [[.expr e span]] left
  have all : many (scriptLine k size) n s = .ok (lines.reverse, v) :=
    bind_of_ok ((loop_of_some (bind_of_ok line) less).trans done)
  refine .step all (.pure ⟨span, ?_⟩)
  rw [same]
  rfl

end Grammar

end ScoreScript.Script
