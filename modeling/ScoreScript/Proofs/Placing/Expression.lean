import ScoreScript.Proofs.Holes.Expression
import ScoreScript.Proofs.Placing.Rule

/-!
The rules for expressions put nodes where they stand. Brackets around an expression are passed and
leave no node, so that what is read in them stands inside of what is used; of a chain of calls
each holds the one before, from the same place on.
-/

namespace ScoreScript.Script

/-- The nodes of arguments that have been read, in their order. -/
def Arguments.series (args : Arguments) : List Node :=
  args.positional.reverse.map .expr ++ args.keywords.reverse.map .keyword

namespace Grammar

open Rule

/-- The rules that are come back to put nodes where they stand. -/
structure KnotPlaces (text : List UInt8) (k : Knot) : Prop where
  expression : Places text k.expression fun e => [.expr e]
  operation : ∀ min, Places text (k.operation min) fun e => [.expr e]
  factor : Places text k.factor fun e => [.expr e]

/-- They begin as expressions do. -/
structure KnotBegins (k : Knot) : Prop where
  expression : Begins k.expression
  operation : ∀ min, Begins (k.operation min)

variable {text : List UInt8} {k : Knot} {p : Nat} {f : Pos} {s : Stream} {start : Pos}

/-! ### String literals -/

/-- Literals that are put together are a constant, or else not simple. -/
theorem toExpr_cases (j : Joining) :
    (∀ span, (Node.expr (j.toExpr span)).parts = [] ∧ (j.toExpr span).span = span) ∨
      ∀ span, (Node.expr (j.toExpr span)).isSimple = false := by
  unfold Joining.toExpr
  split
  · exact .inl fun _ => ⟨rfl, rfl⟩
  · split
    · exact .inr fun _ => rfl
    · exact .inl fun _ => ⟨rfl, rfl⟩

/-- One more literal is joined from its token. -/
theorem literal_places {j : Joining} :
    Places text (do
      match ← look with
      | .string value kind =>
        let token ← take
        some <$> joinLiteral k j value kind token.span
      | _ => return none) fun _ => [] := by
  refine fun p f => .look fun s => ?_
  split
  · refine AppendsAt.seq (Places.take p f s) fun token t n j? u done _ => ?_
    obtain ⟨⟨j', v⟩, joined, ⟨⟩⟩ := ok_of_bind
      (show joinLiteral k j _ _ token.span n t >>= _ = .ok (j?, u) from done)
    obtain ⟨rfl, -⟩ := joinLiteral_fills joined
    exact ⟨[], rfl, List.forall_mem_nil _, id⟩
  · exact .pure rfl

/-- The first literal is there. -/
theorem strings_places {value : String} {kind : StringKind}
    (found : s.current.kind = .string value kind) :
    AppendsAt text [] p f [] (strings k) s fun e => [.expr e] := by
  have solid : s.current.kind.isSolid = true := by rw [found]; rfl
  unfold strings
  refine .start solid fun p n e u done inside => ?_
  obtain ⟨⟨j, t⟩, joined, done⟩ := ok_of_bind (show loop _ _ n s >>= _ = .ok (e, u) from done)
  have rest : Appends text [] (max p (s.current.span.start.offset + 1)) s.current.span.start []
      (do return j.toExpr (← spanFrom s.current.span.start)) fun e => [.expr e] := by
    rcases toExpr_cases j with plain | foreign
    · exact .spanned (by omega) (fun _ => rfl) (fun span => (plain span).1)
        fun span => (plain span).2
    · exact Foreign.adds (.bind fun span => .expr (foreign span))
  obtain ⟨added, split, -, stands⟩ := rest t n e u done inside
  refine ⟨added, split, List.forall_mem_nil _, fun start =>
    (stands ?_).weaken (Nat.le_max_left _ _)⟩
  refine Appends.loop_taken solid (fun j? v one => ?_)
    (fun j p f => .loop (fun _ => []) fun _ => literal_places p f) joined start
  simp only [Rule.run_bind, look, Except.bind, found] at one
  obtain ⟨⟨j', u⟩, one, ⟨⟩⟩ := ok_of_bind
    (show joinLiteral k _ _ _ s.current.span n s.advance >>= _ = .ok (j?, v) from one)
  exact ⟨rfl, (joinLiteral_fills one).1⟩

/-! ### Groups -/

theorem isExpressionEnd_places : Places text isExpressionEnd fun _ => [] := by
  unfold isExpressionEnd
  refine fun p f => .look fun s => ?_
  split <;> exact .pure rfl

section

variable (h : KnotPlaces text k) (b : KnotBegins k)
include h

/-- An operand with a star is not simple. -/
theorem starredOperand_places : Places text (starredOperand k) fun e => [.expr e] :=
  fun _ _ => .skip .here fun _ => .skip .accept fun _ =>
    .ite (Foreign.adds (.bind fun _ => .bind fun _ => .expr rfl)) (h.operation _ _ _)

theorem starredExpression_places : Places text (starredExpression k) fun e => [.expr e] :=
  fun _ _ => .skip .isNext fun _ => .ite (starredOperand_places h _ _) (h.expression _ _)

omit h in
theorem tupleOr_places {isEnd : Rule Bool} {item : Rule Expr} (begins : Begins item)
    (e : Places text isEnd fun _ => []) (h : Places text item fun e => [.expr e]) :
    Places text (tupleOr isEnd item) fun e => [.expr e] := by
  refine .begin (.here fun _ => begins.first) fun s p => AppendsAt.seq (h _ _ s) fun first => ?_
  refine .started (List.cons_ne_nil _ _) fun p less => .skip .isNext fun _ => .ite ?_ (.pure rfl)
  exact .seq (.furtherItems e h) fun items =>
    .spanned less (fun _ => rfl) (fun _ => List.map_eq_flatMap) fun _ => rfl

omit h in
include b in
theorem starredExpression_begins : Begins (starredExpression k) := by
  have operand : Begins (starredOperand k) :=
    .here fun _ => .accept (fun _ => startsExpression_of_op rfl) (b.operation _)
  exact .isNext fun _ => .ite operand b.expression

include b in
theorem expressions_places : Places text (expressions k) fun e => [.expr e] :=
  tupleOr_places (starredExpression_begins b) isExpressionEnd_places (starredExpression_places h)

/-- A name that is given a value is not simple. -/
theorem namedExpression_places : Places text (namedExpression k) fun e => [.expr e] := by
  refine fun p f => .skip .here fun _ => (h.expression _ _).seq fun target => .skip .isNext fun _ =>
    .ite ?_ (.pure rfl)
  split
  · exact Foreign.adds (.bind fun _ => .bind fun _ => .bind fun _ => .expr rfl)
  · exact .fail

omit h in
theorem yieldExpression_foreign : Foreign (yieldExpression k) fun e => [.expr e] :=
  .bind fun _ => .bind fun _ => .bind fun _ =>
    .ite (.bind fun _ => .bind fun _ => .expr rfl) (.bind fun _ => .bind fun _ => .expr rfl)

/-- What is in brackets stands after the opening one. -/
theorem parenthesized_places (less : start.offset < p) :
    Appends text [] p start [] (parenthesized k start) fun e => [.expr e] := by
  unfold parenthesized
  refine .skip .accept fun _ =>
    .ite (.spanned less (fun _ => rfl) (fun _ => rfl) fun _ => rfl)
      (.skip .isNext fun _ => .ite ?_ ?_)
  · exact .seq yieldExpression_foreign.adds fun value => .skip .expect fun _ => .pure rfl
  · have starred := starredOperand_places h p start
    have named := namedExpression_places h p start
    refine .skip .isNext fun _ => .ite (starred.seq ?rest) (named.seq ?rest)
    intro first
    refine .skip .isNext fun _ => .ite ?_ (.skip .accept fun _ => .ite (.pure rfl) ?_)
    · exact Foreign.adds (.bind fun _ => .bind fun _ => .expr rfl)
    · exact .seq (.seq (.furtherItems .isNext (starredExpression_places h)) fun items =>
        .skip .expect fun _ => .pure rfl) fun items =>
          .spanned less (fun _ => rfl) (fun _ => List.map_eq_flatMap) fun _ => rfl

omit h in
theorem listDisplay_foreign : Foreign (listDisplay k start) fun e => [.expr e] :=
  .bind fun _ => .ite (.bind fun _ => .expr rfl) <| .bind fun _ => .bind fun _ =>
    .ite (.bind fun _ => .bind fun _ => .expr rfl) (.bind fun _ => .bind fun _ => .expr rfl)

omit h in
theorem braceDisplay_foreign : Foreign (braceDisplay k start) fun e => [.expr e] := by
  have dict {first : DictEntry} : Foreign (dictFrom k start first) fun e => [.expr e] :=
    .bind fun _ => .bind fun _ => .bind fun _ => .expr rfl
  refine .bind fun _ => .ite (.bind fun _ => .expr rfl) ?_
  refine .bind fun _ => .ite (.bind fun _ => dict) ?_
  refine .bind fun _ => .bind fun _ => .ite (.bind fun _ => .bind fun _ => .ite ?_ dict) ?_
  · exact .bind fun _ => .bind fun _ => .expr rfl
  · exact .bind fun _ => .ite (.bind fun _ => .bind fun _ => .expr rfl)
      (.bind fun _ => .bind fun _ => .expr rfl)

/-! ### Arguments -/

theorem positionalArgument_places :
    Appends text [] p start [] (positionalArgument k start) fun e => [.expr e] :=
  (namedExpression_places h _ _).seq fun _ => .skip .isNext fun _ =>
    .ite (Foreign.adds (.bind fun _ => .bind fun _ => .expr rfl)) (.pure rfl)

omit h in
theorem isKeywordNext_places : Places text isKeywordNext fun _ => [] :=
  .of_quiet fun _ _ found t done => (isKeywordNext_ensures found t done).2.1

omit h in
/-- Where a name and an equals sign do not come first, and no stars do, an expression does. -/
theorem argument_opens (opens : Begins k.expression) {read : Arguments} :
    OpensAt s (argument k read) := by
  have name : Begins Rule.name := by
    intro s n r done
    rw [(name_ok done).1]
    rfl
  have keyword {next : Bool → Rule Arguments} (h : ∀ found, Begins (next found)) :
      Begins (isKeywordNext >>= next) := by
    intro s n r done
    obtain ⟨⟨found, t⟩, first, rest⟩ := ok_of_bind (show isKeywordNext n s >>= _ = .ok r from done)
    obtain ⟨-, rfl, -⟩ := isKeywordNext_ensures found t first
    exact h found _ n r rest
  have plain {start : Pos} : Begins (positionalArgument k start) :=
    (Begins.here fun _ => opens.first).first
  refine .here fun n r done => ?_
  by_cases mapping : Mark.ofKind? s.current.kind = some (.op .power)
  · rw [kind_of_op mapping]
    rfl
  · obtain ⟨⟨found, t⟩, first, rest⟩ := ok_of_bind
      (show accept (.op .power) n s >>= _ = .ok r from done)
    cases (accept_absent mapping).symm.trans first
    exact OpensAt.of_begins (.accept (fun _ => startsExpression_of_op rfl)
      (keyword fun found => .ite name.first plain.first)) n r rest

/-- The stars before a mapping, or the name before a value, belong to its node. -/
theorem argument_places (opens : Begins k.expression) {read : Arguments} :
    Appends text [] p f read.series (argument k read) Arguments.series := by
  have addKeyword (name : Option String) (value : Expr) (span : Span) :
      (read.addKeyword (.mk name value span)).series =
        read.series ++ [.keyword (.mk name value span)] := by
    simp [Arguments.series, Arguments.addKeyword]
  have named {start : Pos} {p : Nat} {name : Option String} {value : Expr} :
      Appends text read.series p start [.expr value]
        (do return read.addKeyword (.mk name value (← spanFrom start))) Arguments.series :=
    .started (List.cons_ne_nil _ _) fun p less =>
      .spanned less (addKeyword name value) (fun _ => rfl) fun _ => rfl
  refine .opening (fun s => argument_opens opens) fun s p solid => ?_
  generalize s.current.span.start = start
  refine Appends.skip .accept (fun _ => .ite ?_ (.skip .accept fun _ => .ite ?_ ?_)) s
  · exact (h.expression _ _).seq fun value => named
  · exact Foreign.adds (.bind fun value => .bind fun span =>
      .pure ⟨.expr (.starred value .load span), by simp [Arguments.series, Arguments.addPositional],
        Node.not_simple rfl⟩)
  · refine .skip isKeywordNext_places fun _ => .ite ?_ ?_
    · refine .skip .name fun name => .skip .take fun _ => (h.expression _ _).seq fun value => ?_
      by_cases repeated : read.names name = true
      · simp only [repeated, if_true]
        exact Foreign.adds (.bind fun _ => .fail)
      · simp only [repeated]
        exact named
    · refine (positionalArgument_places h).seq fun value => ?_
      split
      · rename_i none
        exact .pure (by simp [Arguments.series, Arguments.addPositional, List.isEmpty_iff.1 none])
      · exact .fail

theorem arguments_places (opens : Begins k.expression) : Places text (arguments k) fun args =>
    args.1.map .expr ++ args.2.map .keyword :=
  fun _ _ => .seq (.addItems .isNext fun _ => argument_places h opens) fun _ =>
    .skip .expect fun _ => .pure rfl

/-! ### Operands -/

/-- A call stands from where what is called begins. -/
theorem postfixed_places (opens : Begins k.expression) (less : start.offset < p) {owner : Expr} :
    Appends text [] p start [.expr owner] (postfixed k start owner) fun e? =>
      [.expr (e?.getD owner)] := by
  unfold postfixed
  refine .skip .accept fun _ => .ite ?_ (.skip .accept fun _ => .ite ?_ (.skip .accept fun _ =>
    .ite ?_ (.pure rfl)))
  · exact .bind (arguments_places h opens) fun args =>
      .spanned less (fun _ => rfl) (fun _ => rfl) fun _ => rfl
  · exact Foreign.adds (.bind fun _ => .bind fun _ => .bind fun _ => .instead rfl)
  · exact Foreign.adds (.bind fun _ => .bind fun _ => .instead rfl)

omit h in
theorem isSolid_of_constantOf? {kind : TokenKind} {value : Constant}
    (found : constantOf? kind = some value) : kind.isSolid = true := by
  cases kind <;> first | rfl | cases found

theorem atom_places : Places text (atom k) fun e => [.expr e] := by
  unfold atom
  refine .begin atom_begins fun s p => .look ?_
  split
  · rename_i found
    exact .token (by rw [found]; rfl) rfl rfl
  · rename_i found
    exact strings_places found
  · rename_i found
    exact .taken (by rw [found]; rfl) fun p less => .nested (parenthesized_places h less)
  · rename_i found
    exact .taken (by rw [found]; rfl) fun _ _ => Foreign.adds (.nested listDisplay_foreign)
  · rename_i found
    exact .taken (by rw [found]; rfl) fun _ _ => Foreign.adds (.nested braceDisplay_foreign)
  · split
    · rename_i found
      exact .token (isSolid_of_constantOf? found) rfl rfl
    · exact Appends.unexpected s

theorem primary_places (opens : Begins k.expression) : Places text (primary k) fun e => [.expr e] :=
  .begin (.here fun _ => atom_begins.first) fun s _ => AppendsAt.seq (atom_places h _ _ s) fun _ =>
    .started (List.cons_ne_nil _ _) fun _ less => .loop (fun e => [.expr e]) fun _ =>
      postfixed_places h opens less

/-- A power is not simple, nor is what is waited for. -/
theorem power_places (opens : Begins k.expression) : Places text (power k) fun e => [.expr e] := by
  have primary := primary_places h opens
  unfold power
  refine fun p f => .skip .here fun start => .skip .accept fun awaits => .ite
    ((primary p f).seq fun value => .skip .spanFrom fun span =>
      .seq (Foreign.adds (.expr rfl)) ?rest)
    ((primary p f).seq ?rest)
  exact fun base => .skip .accept fun raised => .ite
    (Foreign.adds (.bind fun _ => .bind fun _ => .expr rfl)) (.pure rfl)

theorem factor_places (opens : Begins k.expression) :
    Places text (factor k) fun e => [.expr e] := by
  refine .begin factor_begins fun s p => .look ?_
  split
  · rename_i op sign
    have solid : s.current.kind.isSolid = true := by
      cases kind : s.current.kind <;> rw [kind] at sign <;> first | rfl | cases sign
    exact .taken solid fun p less => .seq (.nested (h.factor _ _)) fun operand =>
      .spanned less (fun _ => rfl) (fun _ => rfl) fun _ => rfl
  · exact power_places h opens _ _ s

theorem firstOperand_places (opens : Begins k.expression) {min : Level} :
    Places text (firstOperand k min) fun e => [.expr e] := by
  unfold firstOperand
  refine fun p f => .skip .here fun start => .ite (.skip .accept ?rest) (.seq (.pure rfl) ?rest)
  exact fun negated => .ite (Foreign.adds (.bind fun _ => .bind fun _ => .expr rfl))
    (factor_places h opens p f)

/-! ### Whole expressions -/

omit h in
/-- Operations with two sides are not simple. -/
theorem extend_places {min : Level} {left : Expr} :
    Appends text [] p f [.expr left] (extend k min start left) fun e? =>
      [.expr (e?.getD left)] := by
  unfold extend
  refine .look fun s => .ahead ?_
  split
  · exact .pure rfl
  · split
    · exact .pure rfl
    · split
      · exact Foreign.adds (.bind fun _ => .bind fun _ => .instead rfl) s
      · exact Foreign.adds (.bind fun _ => .bind fun _ => .instead rfl) s
      · exact Foreign.adds (.bind fun _ => .bind fun _ => .bind fun _ => .instead rfl) s

theorem operation_places (opens : Begins k.expression) {min : Level} :
    Places text (operation k min) fun e => [.expr e] :=
  fun _ _ => .skip .here fun _ => (firstOperand_places h opens _ _).seq fun _ =>
    .loop (fun e => [.expr e]) fun _ => extend_places

theorem expression_places (opens : Begins k.expression) :
    Places text (expression k) fun e => [.expr e] := by
  have lambda : Foreign (lambda k) fun e => [.expr e] :=
    .bind fun _ => .bind fun _ => .bind fun _ => .bind fun _ => .bind fun _ => .bind fun _ =>
      .expr rfl
  refine fun p f => .nested (.skip .isNext fun _ => .ite lambda.adds (.skip .here fun start => ?_))
  refine (operation_places h opens p f).seq fun body => .skip .accept fun _ => .ite ?_ (.pure rfl)
  exact Foreign.adds (.bind fun _ => .bind fun _ => .bind fun _ => .bind fun _ => .expr rfl)

end

/-- Each round of the circle of rules begins as expressions do. -/
theorem within_begins {hole : Nat → String → Except Error Expr} (size : Nat) : KnotBegins
    ⟨expressionWithin hole size, operationWithin hole size, factorWithin hole size, hole⟩ := by
  cases size with
  | zero =>
    refine ⟨?_, fun min s n r done => ?_⟩
    · simp only [expressionWithin]
      exact .unexpected
    · simp only [operationWithin] at done
      cases done
  | succ size =>
    refine ⟨?_, fun min s n r done => ?_⟩
    · simp only [expressionWithin]
      exact expression_begins
    · simp only [operationWithin] at done
      exact operation_begins s n r done

/-- Each round puts nodes where they stand. -/
theorem within_places {hole : Nat → String → Except Error Expr} (size : Nat) : KnotPlaces text
    ⟨expressionWithin hole size, operationWithin hole size, factorWithin hole size, hole⟩ := by
  induction size with
  | zero =>
    refine ⟨fun p f => ?_, fun min p f s n e t done => ?_, fun p f => ?_⟩
    · simp only [expressionWithin]
      exact .unexpected
    · simp only [operationWithin] at done
      cases done
    · simp only [factorWithin]
      exact .unexpected
  | succ size ih =>
    have opens := (@within_begins hole size).expression
    refine ⟨?_, fun min p f s n e t done => ?_, ?_⟩
    · simp only [expressionWithin]
      exact expression_places ih opens
    · simp only [operationWithin] at done
      exact operation_places ih opens p f s n e t done
    · simp only [factorWithin]
      exact factor_places ih opens

end Grammar

end ScoreScript.Script
