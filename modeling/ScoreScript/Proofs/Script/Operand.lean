import ScoreScript.Proofs.Script.Reading
import ScoreScript.Script.Grammar.Expression
import ScoreScript.Script.Grammar.Statement

/-!
Operands that are expressions by themselves. What a name, a literal or a call is read as, it is read
as by every rule for expressions, if what follows neither goes on with it nor joins it to something.
-/

namespace ScoreScript.Script.Grammar

open Rule

/-- The rules of expressions that come back at most `size` times. -/
def within (hole : Nat → String → Except Error Expr) (size : Nat) : Knot :=
  ⟨expressionWithin hole size, operationWithin hole size, factorWithin hole size, hole⟩

/-- The tokens that end an operand and the expression that it is. -/
def endsOperand : TokenKind → Bool
  | .newline | .op .comma | .op .rightParen | .op .colon | .keyword .asKw => true
  | _ => false

/-- The tokens that an operand without signs may begin with. -/
def startsOperand : TokenKind → Bool
  | .name _ | .string _ _ | .int _ | .op .leftParen | .op .ellipsis | .keyword .noneKw
  | .keyword .trueKw | .keyword .falseKw => true
  | _ => false

/-- The tokens that an operand may begin with, its signs included. -/
def startsSigned : TokenKind → Bool
  | .op .minus => true
  | kind => startsOperand kind

/-- The marks among them. -/
def opensSigned : Mark → Bool
  | .op .minus | .op .leftParen | .op .ellipsis | .word .noneKw | .word .trueKw
  | .word .falseKw => true
  | _ => false

theorem endsOperand_cases {kind : TokenKind} (h : endsOperand kind = true) :
    kind = .newline ∨ kind = .op .comma ∨ kind = .op .rightParen ∨ kind = .op .colon ∨
      kind = .keyword .asKw := by
  unfold endsOperand at h
  split at h
  · exact .inl rfl
  · exact .inr (.inl rfl)
  · exact .inr (.inr (.inl rfl))
  · exact .inr (.inr (.inr (.inl rfl)))
  · exact .inr (.inr (.inr (.inr rfl)))
  · cases h

theorem startsSigned_of_startsOperand {kind : TokenKind} (h : startsOperand kind = true) :
    startsSigned kind = true := by
  unfold startsSigned
  split
  · rfl
  · exact h

/-- A mark that no operand begins with does not stand where one begins. -/
theorem ofKind?_ne_of_startsSigned {kind : TokenKind} (h : startsSigned kind = true) {mark : Mark}
    (other : opensSigned mark = false) : Mark.ofKind? kind ≠ some mark := by
  intro same
  unfold startsSigned at h
  split at h
  · cases same
    cases other
  · unfold startsOperand at h
    split at h <;> first | contradiction | (cases same; done) | (cases same; cases other)

/-- No sign stands before an operand without signs. -/
theorem ofKind?_of_startsOperand {kind : TokenKind} (h : startsOperand kind = true) :
    UnaryOperator.ofKind? kind = none := by
  unfold startsOperand at h
  split at h <;> first | rfl | cases h

variable {n : Nesting} {k : Knot} {kinds rest : List TokenKind} {P : Expr → Prop}
  {last : TokenKind}

/-- The first token of an operand, whatever follows it. -/
theorem exists_ahead {starts : TokenKind → Bool} (opens : kinds.head?.any starts = true)
    (rest : List TokenKind) : ∃ first, (kinds ++ rest).head? = some first ∧ starts first = true := by
  cases kinds with
  | nil => cases opens
  | cons first more => exact ⟨first, rfl, opens⟩

/-- Nothing is applied to an operand that has ended. -/
theorem postfixed_ended (ends : endsOperand last = true) (start : Pos) (owner : Expr) :
    Reads n (postfixed k start owner) [] (last :: rest) (· = none) := by
  unfold postfixed
  rcases endsOperand_cases ends with rfl | rfl | rfl | rfl | rfl <;>
    exact .bind_accept_other _ rfl (by decide) (.bind_accept_other _ rfl (by decide)
      (.bind_accept_other _ rfl (by decide) (.pure rfl)))

theorem extend_ended (ends : endsOperand last = true) (min : Level) (start : Pos) (left : Expr) :
    Reads n (extend k min start left) [] (last :: rest) (· = none) := by
  unfold extend
  refine .bind_look last rfl (.bind_lookAhead fun second => ?_)
  have none : Joint.ofKinds? last second = none := by
    rcases endsOperand_cases ends with rfl | rfl | rfl | rfl | rfl <;> rfl
  rw [none]
  exact .pure rfl

theorem power_of_primary (opens : kinds.head?.any startsOperand = true)
    (ends : endsOperand last = true) (h : Reads n (primary k) kinds (last :: rest) P) :
    Reads n (power k) kinds (last :: rest) P := by
  obtain ⟨first, ahead, starts⟩ := exists_ahead opens (last :: rest)
  have signed := startsSigned_of_startsOperand starts
  unfold power
  refine .bind_here fun start => .bind_accept_other _ ahead
    (ofKind?_ne_of_startsSigned signed rfl) ?_
  refine .bind_all h fun base holds => .bind_accept_other last rfl ?_ (.pure holds)
  rcases endsOperand_cases ends with rfl | rfl | rfl | rfl | rfl <;> decide

theorem factor_of_primary (opens : kinds.head?.any startsOperand = true)
    (ends : endsOperand last = true) (h : Reads n (primary k) kinds (last :: rest) P) :
    Reads n (factor k) kinds (last :: rest) P := by
  obtain ⟨first, ahead, starts⟩ := exists_ahead opens (last :: rest)
  unfold factor
  refine .bind_here fun start => .bind_look _ ahead ?_
  rw [ofKind?_of_startsOperand starts]
  exact power_of_primary opens ends h

section

variable (opens : kinds.head?.any startsSigned = true) (ends : endsOperand last = true)
include opens ends

theorem operation_of_factor (min : Level) (h : Reads n (factor k) kinds (last :: rest) P) :
    Reads n (operation k min) kinds (last :: rest) P := by
  obtain ⟨first, ahead, starts⟩ := exists_ahead opens (last :: rest)
  have operand : Reads n (firstOperand k min) kinds (last :: rest) P := by
    unfold firstOperand
    refine .bind_here fun start => ?_
    split
    · exact .bind_accept_other _ ahead (ofKind?_ne_of_startsSigned starts rfl) h
    · refine .bind_nothing (P := (· = false)) (.pure rfl) ?_
      rintro _ rfl
      exact h
  unfold operation
  exact .bind_here fun start => .bind_all operand fun a holds =>
    .loop_stop (extend_ended ends min start a) holds

theorem expression_of_factor (room : Limits.allows n.limit (n.depth + 1) = true)
    (h : Reads ⟨n.limit, n.depth + 1⟩ (factor k) kinds (last :: rest) P) :
    Reads n (expression k) kinds (last :: rest) P := by
  obtain ⟨first, ahead, starts⟩ := exists_ahead opens (last :: rest)
  have noLambda : (Mark.ofKind? first == some (.word .lambdaKw)) = false :=
    beq_eq_false_iff_ne.2 (ofKind?_ne_of_startsSigned starts rfl)
  unfold expression
  refine .nested room (.bind_isNext _ ahead ?_)
  rw [noLambda]
  refine .bind_here fun start => .bind_all (operation_of_factor opens ends .or h)
    fun body holds => .bind_accept_other last rfl ?_ (.pure holds)
  rcases endsOperand_cases ends with rfl | rfl | rfl | rfl | rfl <;> decide

end

theorem opens_signed (opens : kinds.head?.any startsOperand = true) :
    kinds.head?.any startsSigned = true := by
  obtain ⟨first, here, starts⟩ := (Option.any_eq_true _ _).1 opens
  exact (Option.any_eq_true _ _).2 ⟨first, here, startsSigned_of_startsOperand starts⟩

theorem expression_of_primary (opens : kinds.head?.any startsOperand = true)
    (ends : endsOperand last = true)
    (room : Limits.allows n.limit (n.depth + 1) = true)
    (h : Reads ⟨n.limit, n.depth + 1⟩ (primary k) kinds (last :: rest) P) :
    Reads n (expression k) kinds (last :: rest) P :=
  expression_of_factor (opens_signed opens) ends room (factor_of_primary opens ends h)

/-- An expression without a value of its own for a name is itself. -/
theorem namedExpression_of_expression (ends : endsOperand last = true)
    (h : Reads n k.expression kinds (last :: rest) P) :
    Reads n (namedExpression k) kinds (last :: rest) P := by
  have noWalrus : (Mark.ofKind? last == some (.op .walrus)) = false := by
    rcases endsOperand_cases ends with rfl | rfl | rfl | rfl | rfl <;> rfl
  unfold namedExpression
  refine .bind_here fun start => .bind_all h fun e holds => .bind_isNext last rfl ?_
  rw [noWalrus]
  exact .pure holds

/-- An expression without a star is itself. -/
theorem starredExpression_of_expression (opens : kinds.head?.any startsSigned = true)
    (h : Reads n k.expression kinds rest P) : Reads n (starredExpression k) kinds rest P := by
  obtain ⟨first, ahead, starts⟩ := exists_ahead opens rest
  have noStar : (Mark.ofKind? first == some (.op .times)) = false :=
    beq_eq_false_iff_ne.2 (ofKind?_ne_of_startsSigned starts rfl)
  unfold starredExpression
  refine .bind_isNext _ ahead ?_
  rw [noStar]
  exact h

/-! ### Names and literals -/

theorem atom_name {id : String} : Reads n (atom k) [.name id] rest
    fun e => ∃ span, e = .name id .load span := by
  unfold atom
  exact .bind_here fun start => .bind_look (.name id) rfl
    (.bind_take rfl fun token _ => .pure ⟨token.span, rfl⟩)

/-- The string constant with this value, wherever it stands. -/
def IsText (value : String) (e : Expr) : Prop :=
  ∃ span, e = .constant (.str value) span

/-- A literal that stands alone is the constant that it is joined to nothing as. -/
theorem atom_alone {value : String} {kind : StringKind} {constant : Constant}
    (joined : Pos → Joining)
    (opened : ∀ start span,
      joinLiteral k (Joining.empty start) value kind span = Pure.pure (joined start))
    (closed : ∀ start span, (joined start).toExpr span = .constant constant span)
    (other : ∀ value kind, last ≠ .string value kind) :
    Reads n (atom k) [.string value kind] (last :: rest)
      fun e => ∃ span, e = .constant constant span := by
  have alone : Reads n (strings k) [.string value kind] (last :: rest)
      fun e => ∃ span, e = .constant constant span := by
    unfold strings
    refine .bind_here fun start => .bind_all (P := (· = joined start)) ?_ ?_
    · refine Reads.loop_more [_] [] (Q := (· = joined start)) (by simp)
        (.bind_look (.string value kind) rfl (.bind_take rfl fun token _ => ?_)) ?_
      · rw [opened]
        exact Reads.map (P := (· = joined start)) (.pure rfl) fun j same => ⟨j, rfl, same⟩
      · rintro _ rfl
        refine .loop_stop (.bind_look last rfl ?_) rfl
        split
        · rename_i value kind
          exact absurd rfl (other value kind)
        · exact .pure rfl
    · rintro _ rfl
      exact .bind_span fun span => .pure ⟨span, closed start span⟩
  unfold atom
  exact .bind_here fun start => .bind_look (.string value kind) rfl alone

theorem atom_text {value : String} (other : ∀ value kind, last ≠ .string value kind) :
    Reads n (atom k) [.string value .text] (last :: rest) (IsText value) :=
  atom_alone (fun start => ⟨[], value, none, false, start⟩)
    (fun _ _ => by simp [joinLiteral, Joining.empty]) (fun _ _ => rfl) other

theorem atom_bytes {value : String} (other : ∀ value kind, last ≠ .string value kind) :
    Reads n (atom k) [.string value .bytes] (last :: rest)
      fun e => ∃ span, e = .constant (.bytes (utf8 value)) span :=
  atom_alone (fun start => ⟨[], "", some (utf8 value), false, start⟩)
    (fun _ _ => by simp [joinLiteral, Joining.empty]) (fun _ _ => rfl) other

end ScoreScript.Script.Grammar

/-!
Lines and scripts of a single statement. An expression that stands alone on a line is a statement,
and a line by itself is a script.
-/

namespace ScoreScript.Script

namespace Grammar

open Rule

variable {n : Nesting} {k : Knot} {kinds rest : List TokenKind}

/-- A statement alone on a line. -/
theorem simpleStatements_of_small {Q : Stmt → Prop}
    (h : Reads n (smallStatement k) kinds (.newline :: rest) Q) :
    Reads n (simpleStatements k) (kinds ++ [.newline]) rest fun body => ∃ s, body = [s] ∧ Q s := by
  have noMore : Reads n (furtherStatement k) [] ([.newline] ++ rest) (· = none) :=
    .bind_accept_other .newline rfl nofun (.pure rfl)
  have ended : Reads n lineEnd [.newline] rest fun _ => True :=
    .bind_look .newline rfl (.bind_take rfl fun _ _ => .pure trivial)
  unfold simpleStatements
  refine .bind h fun s holds => .bind_nothing (.many_none noMore) ?_
  rintro _ rfl
  exact .bind_all ended fun _ _ => .pure ⟨s, rfl, holds⟩

section

variable {P : Expr → Prop} (opens : kinds.head?.any startsSigned = true)
include opens

theorem expressions_of_expression
    (h : Reads n k.expression kinds (.newline :: rest) P) :
    Reads n (expressions k) kinds (.newline :: rest) P := by
  unfold expressions tupleOr
  exact .bind_here fun start => .bind_all (starredExpression_of_expression opens h) fun e holds =>
    .bind_isNext .newline rfl (.pure holds)

/-- An expression alone on a line. -/
theorem smallStatement_of_expression
    (h : Reads n k.expression kinds (.newline :: rest) P) :
    Reads n (smallStatement k) kinds (.newline :: rest) fun s =>
      ∃ e span, s = .expr e span ∧ P e := by
  obtain ⟨first, ahead, starts⟩ := exists_ahead opens (.newline :: rest)
  have alone (start : Pos) : Reads n (expressionStatement k start) kinds (.newline :: rest)
      fun s => ∃ e span, s = .expr e span ∧ P e := by
    unfold expressionStatement
    exact .bind_all (expressions_of_expression opens h) fun e holds =>
      .bind_look .newline rfl (.bind_span fun span => .pure ⟨e, span, rfl, holds⟩)
  unfold smallStatement
  refine .bind_here fun start => .bind_look _ ahead ?_
  unfold startsSigned startsOperand at starts
  split at starts
  · exact alone start
  · split at starts <;> first | exact alone start | cases starts

theorem simpleStatements_of_expression
    (h : Reads n k.expression kinds (.newline :: rest) P) :
    Reads n (simpleStatements k) (kinds ++ [.newline]) rest
      fun body => ∃ e span, body = [.expr e span] ∧ P e := by
  refine (simpleStatements_of_small (smallStatement_of_expression opens h)).mono ?_
  rintro _ ⟨_, rfl, e, span, rfl, holds⟩
  exact ⟨e, span, rfl, holds⟩

/-- A statement that is an expression. -/
theorem statementWithin_of_expression {size : Nat}
    (h : Reads n k.expression kinds (.newline :: rest) P) :
    Reads n (statementWithin k (size + 1)) (kinds ++ [.newline]) rest
      fun body => ∃ e span, body = [.expr e span] ∧ P e := by
  obtain ⟨first, ahead, starts⟩ := exists_ahead opens ([.newline] ++ rest)
  have alone := simpleStatements_of_expression opens h
  rw [← List.append_assoc] at ahead
  refine Reads.bind_look (n := n) _ ahead ?_
  unfold startsSigned startsOperand at starts
  split at starts
  · exact alone
  · split at starts <;> first | exact alone | cases starts

end

/-- Lines of a statement each, put together. -/
theorem flatten_of_forall₂ {ι : Type} {items : List ι} {Q : ι → Stmt → Prop}
    {lines : List (List Stmt)}
    (h : List.Forall₂ (fun item body => ∃ s, body = [s] ∧ Q item s) items lines) :
    List.Forall₂ Q items lines.flatten := by
  induction h with
  | nil => exact .nil
  | cons one _ ih =>
    obtain ⟨s, rfl, same⟩ := one
    exact .cons same ih

/-- A token that a statement may begin with: neither layout nor the end. -/
def startsStatement (kind : TokenKind) : Bool :=
  !kind.isLayout && !kind.isEof

/-- Statements one after the other are a script. -/
theorem script_of_statements {ι : Type} {items : List ι} {kindsOf : ι → List TokenKind}
    {Q : ι → Stmt → Prop} {size : Nat}
    (begins : ∀ item ∈ items, (kindsOf item).head?.any startsStatement = true)
    (h : ∀ item ∈ items, ∀ rest, Reads n (statementWithin k (size + 1)) (kindsOf item) rest
      fun body => ∃ s, body = [s] ∧ Q item s) :
    Reads n (script k size) (items.flatMap kindsOf) [.eof]
      fun m => List.Forall₂ Q items m.body := by
  have line : ∀ item ∈ items, Reads.Rounds n (scriptLine k size) (fun _ => True)
      (fun body => ∃ s, body = [s] ∧ Q item s) (kindsOf item) := by
    intro item member
    obtain ⟨first, more, kinds⟩ : ∃ first more, kindsOf item = first :: more :=
      List.exists_cons_of_ne_nil fun none => by
        have first := begins item member
        rw [none] at first
        cases first
    have starts : startsStatement first = true := by
      have first := begins item member
      rwa [kinds] at first
    refine .of_any (by rw [kinds]; exact List.cons_ne_nil _ _) fun tail => ?_
    have read := (h item member tail).map (f := some) (R := fun body? =>
      ∃ body, body? = some body ∧ ∃ s, body = [s] ∧ Q item s) fun body holds => ⟨body, rfl, holds⟩
    unfold scriptLine
    refine .bind_look first (by rw [kinds]; rfl) ?_
    split
    · cases starts
    · cases starts
    · exact read
  have stop : Reads n (scriptLine k size) [] [.eof] (· = none) := .bind_look .eof rfl (.pure rfl)
  have lines := Reads.many line stop trivial
  rw [List.append_nil] at lines
  unfold script
  refine .bind_all lines fun found holds => .pure ?_
  exact flatten_of_forall₂ holds

/-- A statement by itself is a script. -/
theorem script_of_statement {Q : Stmt → Prop} {size : Nat}
    (begins : kinds.head?.any startsStatement = true)
    (h : ∀ rest, Reads n (statementWithin k (size + 1)) kinds rest
      fun body => ∃ s, body = [s] ∧ Q s) :
    Reads n (script k size) kinds [.eof] fun m => ∃ s, m = ⟨[s]⟩ ∧ Q s := by
  have lines : Reads n (script k size) ([()].flatMap fun _ => kinds) [.eof]
      fun m => List.Forall₂ (fun _ => Q) [()] m.body :=
    script_of_statements (fun _ _ => begins) fun _ _ => h
  rw [List.flatMap_singleton] at lines
  refine lines.mono fun m holds => ?_
  obtain ⟨body⟩ := m
  cases holds with
  | cons one none =>
    cases none
    exact ⟨_, rfl, one⟩

end Grammar

/-- What a text is read as that is within the limits. -/
theorem Module.ofText_of_reads (limits : Limits) {text : String} {tokens : List (Token TokenKind)}
    {kinds : List TokenKind} {P : Module → Prop}
    (fits : Limits.allows limits.maxSize (utf8 text).length = true)
    (lexed : Script.tokens (utf8 text) = .ok tokens)
    (known : tokens.map (·.kind) = kinds ++ [.eof])
    (read : ∀ hole, Rule.Reads ⟨limits.maxDepth, 0⟩
      (Grammar.script (Grammar.knot hole tokens.length) tokens.length) kinds [.eof] P) :
    ∃ m, Module.ofText limits text = .ok m ∧ P m := by
  obtain ⟨m, t, done, -, holds⟩ := read (Grammar.readHole (utf8 text).length)
      (.ofTokens tokens) known
  refine ⟨m, ?_, holds⟩
  have parsed : Module.ofTokens limits.maxDepth (utf8 text).length tokens = .ok m := by
    simp only [Module.ofTokens, done, bind, Except.bind, pure, Except.pure]
  have checked : limits.checkSize (utf8 text).length = .ok () := by
    rw [Limits.checkSize, if_pos fits]
  simp only [Module.ofText, checked, lexed, bind, Except.bind]
  exact parsed

end ScoreScript.Script
