import ScoreScript.Proofs.Nesting.Rule
import ScoreScript.Script.Grammar.Argument
import ScoreScript.Script.Grammar.Expression

/-!
Rules that are put together in the same way. `Rule.Parallel` takes two rules apart side by side,
down to the steps that read or look at single tokens and to pairs of rules that are given. What
passes from parts to the whole is then proved once, by induction on how the rules are put
together, for every rule of the grammar. The rules for expressions are parallel where the rules that
they come back to are.
-/

namespace ScoreScript.Script

namespace Rule

/-- Both rules consist of the same steps in the same order, or of given pairs. -/
inductive Parallel (Given : (α : Type) → Rule α → Rule α → Prop) :
    {α : Type} → Rule α → Rule α → Prop where
  | given {α : Type} {rule rule' : Rule α} (h : Given α rule rule') : Parallel Given rule rule'
  | pure {α : Type} {a : α} : Parallel Given (Pure.pure a) (Pure.pure a)
  | bind {α β : Type} {rule rule' : Rule α} {next next' : α → Rule β}
    (first : Parallel Given rule rule') (rest : ∀ a, Parallel Given (next a) (next' a)) :
    Parallel Given (rule >>= next) (rule' >>= next')
  | look : Parallel Given look look
  | lookAhead : Parallel Given lookAhead lookAhead
  | here : Parallel Given here here
  | spanFrom {start : Pos} : Parallel Given (spanFrom start) (spanFrom start)
  | take : Parallel Given take take
  | fail {α : Type} {cause : GrammarError} {span : Span} :
    Parallel Given (fail cause span : Rule α) (fail cause span)
  | unexpected {α : Type} {wanted : String} :
    Parallel Given (unexpected wanted : Rule α) (unexpected wanted)
  /-- What is read can be put to another use; no other computation is lifted. -/
  | lift {e : Expr} {use : Use} :
    Parallel Given (lift (e.toTarget use)) (lift (e.toTarget use))
  | nested {α : Type} {rule rule' : Rule α} (inner : Parallel Given rule rule') :
    Parallel Given (nested rule) (nested rule')
  | loop {α : Type} {round round' : α → Rule (Option α)} {a : α}
    (rounds : ∀ a, Parallel Given (round a) (round' a)) :
    Parallel Given (loop round a) (loop round' a)

namespace Parallel

variable {Given : (α : Type) → Rule α → Rule α → Prop} {α β : Type} {rule rule' : Rule α}

theorem map {f : α → β} (h : Parallel Given rule rule') :
    Parallel Given (f <$> rule) (f <$> rule') :=
  have all : Parallel Given (rule >>= fun a => Pure.pure (f a))
      (rule' >>= fun a => Pure.pure (f a)) :=
    h.bind fun _ => pure
  all

theorem ite {c : Prop} [Decidable c] {other other' : Rule α} (h : Parallel Given rule rule')
    (h' : Parallel Given other other') :
    Parallel Given (if c then rule else other) (if c then rule' else other') := by
  split
  · exact h
  · exact h'

/-! ### Single tokens -/

theorem isNext {mark : Mark} : Parallel Given (isNext mark) (isNext mark) :=
  look.bind fun _ => pure

theorem accept {mark : Mark} : Parallel Given (accept mark) (accept mark) :=
  isNext.bind fun _ => ite (take.bind fun _ => pure) pure

theorem expect {mark : Mark} : Parallel Given (expect mark) (expect mark) :=
  accept.bind fun _ => ite pure unexpected

theorem name : Parallel Given name name := by
  refine look.bind fun kind => ?_
  split
  · exact take.bind fun _ => pure
  · exact unexpected

/-! ### Repetition -/

theorem when? {present : Rule Bool} (p : Parallel Given present present)
    (h : Parallel Given rule rule') :
    Parallel Given (Rule.when? present rule) (Rule.when? present rule') :=
  p.bind fun _ => ite h.map pure

theorem many {round round' : Rule (Option α)} (h : Parallel Given round round') :
    Parallel Given (Rule.many round) (Rule.many round') :=
  (loop fun _ => h.bind fun _ => pure).bind fun _ => pure

theorem separated (h : Parallel Given rule rule') :
    Parallel Given (Rule.separated rule) (Rule.separated rule') :=
  h.bind fun _ => (many (when? accept h)).bind fun _ => pure

theorem addFurther {isEnd : Rule Bool} {add add' : α → Rule α} {a : α}
    (e : Parallel Given isEnd isEnd) (h : ∀ a, Parallel Given (add a) (add' a)) :
    Parallel Given (Rule.addFurther isEnd add a) (Rule.addFurther isEnd add' a) :=
  loop fun a => accept.bind fun _ => ite (e.bind fun _ => ite pure (h a).map) pure

theorem addItems {isEnd : Rule Bool} {add add' : α → Rule α} {a : α}
    (e : Parallel Given isEnd isEnd) (h : ∀ a, Parallel Given (add a) (add' a)) :
    Parallel Given (Rule.addItems isEnd add a) (Rule.addItems isEnd add' a) :=
  e.bind fun _ => ite pure ((h a).bind fun _ => addFurther e h)

theorem furtherItems {isEnd : Rule Bool} {first : α} (e : Parallel Given isEnd isEnd)
    (h : Parallel Given rule rule') :
    Parallel Given (Rule.furtherItems isEnd rule first) (Rule.furtherItems isEnd rule' first) :=
  (addFurther e fun _ => h.bind fun _ => pure).bind fun _ => pure

theorem items {isEnd : Rule Bool} (e : Parallel Given isEnd isEnd)
    (h : Parallel Given rule rule') :
    Parallel Given (Rule.items isEnd rule) (Rule.items isEnd rule') :=
  (addItems e fun _ => h.bind fun _ => pure).bind fun _ => pure

end Parallel

end Rule

end ScoreScript.Script

namespace ScoreScript.Script

open Rule

/-- The rules that an expression may come back to are parallel, and those for string literals,
which read what is in holes by themselves. -/
structure Knot.Parallel (Given : (α : Type) → Rule α → Rule α → Prop) (k k' : Knot) : Prop where
  expression : Rule.Parallel Given k.expression k'.expression
  operation : ∀ min, Rule.Parallel Given (k.operation min) (k'.operation min)
  factor : Rule.Parallel Given k.factor k'.factor
  strings : Rule.Parallel Given (Grammar.strings k) (Grammar.strings k')

namespace Grammar

variable {Given : (α : Type) → Rule α → Rule α → Prop} {k k' : Knot}

/-! ### String literals -/

mutual

theorem formatPiece_parallel {span : Span}
    (h : ∀ source span, Rule.Parallel Given (holeValue k source span) (holeValue k' source span)) :
    (piece : FormatPiece) →
    Rule.Parallel Given (formatPiece k span piece) (formatPiece k' span piece)
  | .literal text => by
    rw [formatPiece, formatPiece]
    exact .pure
  | .hole source conversion none => by
    rw [formatPiece, formatPiece]
    exact .nested ((h source span).bind fun _ => .pure)
  | .hole source conversion (some pieces) => by
    rw [formatPiece, formatPiece]
    exact .nested ((h source span).bind fun _ =>
      (formatPieces_parallel h pieces).bind fun _ => .pure)

theorem formatPieces_parallel {span : Span}
    (h : ∀ source span, Rule.Parallel Given (holeValue k source span) (holeValue k' source span)) :
    (pieces : List FormatPiece) →
    Rule.Parallel Given (formatPieces k span pieces) (formatPieces k' span pieces)
  | [] => by
    rw [formatPieces, formatPieces]
    exact .pure
  | piece :: rest => by
    rw [formatPieces, formatPieces]
    exact (formatPiece_parallel h piece).bind fun _ =>
      (formatPieces_parallel h rest).bind fun _ => .pure

end

section

variable (h : ∀ source span,
  Rule.Parallel Given (holeValue k source span) (holeValue k' source span))
include h

theorem joinPieces_parallel {span : Span} {pieces : List FormatPiece} :
    ∀ {j : Joining},
      Rule.Parallel Given (joinPieces k span j pieces) (joinPieces k' span j pieces) := by
  induction pieces with
  | nil => exact .pure
  | cons piece rest ih =>
    cases piece with
    | literal text => exact ih
    | hole source conversion spec => exact (formatPiece_parallel h _).bind fun _ => ih

theorem joinLiteral_parallel {j : Joining} {value : String} {kind : StringKind} {span : Span} :
    Rule.Parallel Given (joinLiteral k j value kind span) (joinLiteral k' j value kind span) := by
  unfold joinLiteral
  split
  · exact .ite .fail .pure
  · exact .fail
  · exact .pure
  · split
    · exact joinPieces_parallel h
    · exact .fail

/-- String literals are read alike if the values in holes are. -/
theorem strings_parallel : Rule.Parallel Given (strings k) (strings k') := by
  refine .bind .here fun start => .bind (.loop fun j => .bind .look fun kind => ?_)
    fun _ => .bind .spanFrom fun _ => .pure
  split
  · exact .bind .take fun _ => .map (joinLiteral_parallel h)
  · exact .pure

end

/-! ### Lists of expressions -/

theorem isExpressionEnd_parallel : Rule.Parallel Given isExpressionEnd isExpressionEnd := by
  refine .bind .look fun kind => ?_
  split <;> exact .pure

theorem isKeywordNext_parallel : Rule.Parallel Given isKeywordNext isKeywordNext := by
  refine .bind .look fun first => .bind .lookAhead fun second => ?_
  split <;> exact .pure

theorem tupleOr_parallel {isEnd : Rule Bool} {item item' : Rule Expr}
    (e : Rule.Parallel Given isEnd isEnd) (h : Rule.Parallel Given item item') :
    Rule.Parallel Given (tupleOr isEnd item) (tupleOr isEnd item') :=
  .bind .here fun _ => h.bind fun _ => .bind .isNext fun _ =>
    .ite ((Parallel.furtherItems e h).bind fun _ => .bind .spanFrom fun _ => .pure) .pure

section

variable (h : Knot.Parallel Given k k')
include h

theorem starredOperand_parallel : Rule.Parallel Given (starredOperand k) (starredOperand k') :=
  .bind .here fun _ => .bind .accept fun _ =>
    .ite ((h.operation _).bind fun _ => .bind .spanFrom fun _ => .pure) (h.operation _)

theorem starredExpression_parallel :
    Rule.Parallel Given (starredExpression k) (starredExpression k') :=
  .bind .isNext fun _ => .ite (starredOperand_parallel h) h.expression

theorem expressions_parallel : Rule.Parallel Given (expressions k) (expressions k') :=
  tupleOr_parallel isExpressionEnd_parallel (starredExpression_parallel h)

theorem namedExpression_parallel : Rule.Parallel Given (namedExpression k) (namedExpression k') := by
  refine .bind .here fun _ => h.expression.bind fun target => .bind .isNext fun _ => .ite ?_ .pure
  split
  · exact .bind .take fun _ => h.expression.bind fun _ => .bind .spanFrom fun _ => .pure
  · exact .fail

theorem loopTarget_parallel : Rule.Parallel Given (loopTarget k) (loopTarget k') :=
  (tupleOr_parallel .isNext (starredOperand_parallel h)).bind fun _ => .lift

theorem comprehension_parallel : Rule.Parallel Given (comprehension k) (comprehension k') :=
  .bind .here fun _ => .bind .expect fun _ => (loopTarget_parallel h).bind fun _ =>
    .bind .expect fun _ => (h.operation _).bind fun _ =>
      (Parallel.many (.when? .accept (h.operation _))).bind fun _ => .bind .spanFrom fun _ => .pure

theorem comprehensions_parallel : Rule.Parallel Given (comprehensions k) (comprehensions k') :=
  .many (.when? .isNext (comprehension_parallel h))

theorem yieldExpression_parallel : Rule.Parallel Given (yieldExpression k) (yieldExpression k') := by
  refine .bind .here fun _ => .bind .expect fun _ => .bind .accept fun _ => .ite ?_ ?_
  · exact h.expression.bind fun _ => .bind .spanFrom fun _ => .pure
  · have present : Rule.Parallel Given (do return !(← isExpressionEnd))
        (do return !(← isExpressionEnd)) :=
      isExpressionEnd_parallel.bind fun _ => .pure
    exact (Parallel.when? present (expressions_parallel h)).bind fun _ =>
      .bind .spanFrom fun _ => .pure

/-! ### Displays -/

theorem displayItems_parallel {first : Expr} {closing : Mark} :
    Rule.Parallel Given (displayItems k first closing) (displayItems k' first closing) :=
  (Parallel.furtherItems .isNext (starredExpression_parallel h)).bind fun _ =>
    .bind .expect fun _ => .pure

theorem displayClauses_parallel {closing : Mark} :
    Rule.Parallel Given (displayClauses k closing) (displayClauses k' closing) :=
  (comprehensions_parallel h).bind fun _ => .bind .expect fun _ => .pure

theorem parenthesized_parallel {start : Pos} :
    Rule.Parallel Given (parenthesized k start) (parenthesized k' start) := by
  refine .bind .accept fun _ => .ite (.bind .spanFrom fun _ => .pure) (.bind .isNext fun _ => ?_)
  refine .ite ((yieldExpression_parallel h).bind fun _ => .bind .expect fun _ => .pure) ?_
  refine .bind .isNext fun _ => .ite ((starredOperand_parallel h).bind ?rest)
    ((namedExpression_parallel h).bind ?rest)
  exact fun _ => .bind .isNext fun _ => .ite
    ((displayClauses_parallel h).bind fun _ => .bind .spanFrom fun _ => .pure)
    (.bind .accept fun _ => .ite .pure
      ((displayItems_parallel h).bind fun _ => .bind .spanFrom fun _ => .pure))

theorem listDisplay_parallel {start : Pos} :
    Rule.Parallel Given (listDisplay k start) (listDisplay k' start) :=
  .bind .accept fun _ => .ite (.bind .spanFrom fun _ => .pure)
    ((starredExpression_parallel h).bind fun _ => .bind .isNext fun _ => .ite
      ((displayClauses_parallel h).bind fun _ => .bind .spanFrom fun _ => .pure)
      ((displayItems_parallel h).bind fun _ => .bind .spanFrom fun _ => .pure))

theorem dictEntry_parallel : Rule.Parallel Given (dictEntry k) (dictEntry k') :=
  .bind .accept fun _ => .ite ((h.operation _).bind fun _ => .pure)
    (h.expression.bind fun _ => .bind .expect fun _ => h.expression.bind fun _ => .pure)

theorem dictFrom_parallel {start : Pos} {first : DictEntry} :
    Rule.Parallel Given (dictFrom k start first) (dictFrom k' start first) :=
  (Parallel.furtherItems .isNext (dictEntry_parallel h)).bind fun _ =>
    .bind .expect fun _ => .bind .spanFrom fun _ => .pure

theorem braceDisplay_parallel {start : Pos} :
    Rule.Parallel Given (braceDisplay k start) (braceDisplay k' start) := by
  refine .bind .accept fun _ => .ite (.bind .spanFrom fun _ => .pure) (.bind .accept fun _ => ?_)
  refine .ite ((h.operation _).bind fun _ => dictFrom_parallel h) ?_
  refine (starredExpression_parallel h).bind fun _ => .bind .accept fun _ => .ite ?_ ?_
  · exact h.expression.bind fun _ => .bind .isNext fun _ => .ite
      ((displayClauses_parallel h).bind fun _ => .bind .spanFrom fun _ => .pure)
      (dictFrom_parallel h)
  · exact .bind .isNext fun _ => .ite
      ((displayClauses_parallel h).bind fun _ => .bind .spanFrom fun _ => .pure)
      ((displayItems_parallel h).bind fun _ => .bind .spanFrom fun _ => .pure)

/-! ### Arguments, slices and parameters -/

theorem positionalArgument_parallel {start : Pos} :
    Rule.Parallel Given (positionalArgument k start) (positionalArgument k' start) :=
  (namedExpression_parallel h).bind fun _ => .bind .isNext fun _ => .ite
    ((comprehensions_parallel h).bind fun _ => .bind .spanFrom fun _ => .pure) .pure

theorem argument_parallel {read : Arguments} :
    Rule.Parallel Given (argument k read) (argument k' read) := by
  refine .bind .here fun start => .bind .accept fun _ => .ite ?_ ?_
  · exact h.expression.bind fun _ => .bind .spanFrom fun _ => .pure
  refine .bind .accept fun _ => .ite ?_ ?_
  · exact h.expression.bind fun _ => .bind .spanFrom fun _ => .pure
  refine isKeywordNext_parallel.bind fun _ => .ite ?_ ?_
  · exact .bind .name fun _ => .bind .take fun _ => h.expression.bind fun _ =>
      .bind .spanFrom fun _ => .ite .fail .pure
  · exact (positionalArgument_parallel h).bind fun _ => .ite .pure .fail

theorem arguments_parallel : Rule.Parallel Given (arguments k) (arguments k') :=
  (Parallel.addItems .isNext fun _ => argument_parallel h).bind fun _ =>
    .bind .expect fun _ => .pure

theorem sliceBound_parallel : Rule.Parallel Given (sliceBound k) (sliceBound k') := by
  refine .bind .look fun kind => ?_
  split
  iterate 3 exact .pure
  exact .map h.expression

theorem sliceFrom_parallel {start : Pos} {lower : Option Expr} :
    Rule.Parallel Given (sliceFrom k start lower) (sliceFrom k' start lower) := by
  refine .bind .expect fun _ => (sliceBound_parallel h).bind fun _ => .bind .accept fun _ =>
    .ite ((sliceBound_parallel h).bind ?rest) (Parallel.pure.bind ?rest)
  exact fun _ => .bind .spanFrom fun _ => .pure

theorem slice_parallel : Rule.Parallel Given (slice k) (slice k') :=
  .bind .here fun _ => .bind .isNext fun _ => .ite (sliceFrom_parallel h)
    ((starredExpression_parallel h).bind fun _ => .bind .isNext fun _ =>
      .ite (sliceFrom_parallel h) .pure)

theorem slices_parallel : Rule.Parallel Given (slices k) (slices k') :=
  tupleOr_parallel .isNext (slice_parallel h)

theorem param_parallel {annotated : Bool} :
    Rule.Parallel Given (param k annotated) (param k' annotated) := by
  refine .bind .here fun _ => .bind .name fun _ =>
    .ite ((Parallel.when? .accept h.expression).bind ?rest) (Parallel.pure.bind ?rest)
  exact fun _ => .bind .spanFrom fun _ => .pure

theorem paramEntry_parallel {annotated : Bool} {closing : Mark} :
    Rule.Parallel Given (paramEntry k annotated closing) (paramEntry k' annotated closing) := by
  refine .bind .accept fun _ => .ite .pure (.bind .accept fun _ => .ite ?_ ?_)
  · exact (param_parallel h).bind fun _ => .pure
  refine .bind .accept fun _ => .ite ?_ ((param_parallel h).bind fun entry => ?_)
  · exact .bind .isNext fun _ => .ite .pure (.bind .isNext fun _ => .ite .pure
      ((param_parallel h).bind fun _ => .pure))
  · obtain ⟨name, hint, _, span⟩ := entry
    exact (Parallel.when? .accept h.expression).bind fun _ => .pure

theorem parameters_parallel {annotated : Bool} {closing : Mark} :
    Rule.Parallel Given (parameters k annotated closing) (parameters k' annotated closing) :=
  (Parallel.items .isNext (paramEntry_parallel h)).bind fun _ => .pure

/-! ### Operands -/

theorem atom_parallel : Rule.Parallel Given (atom k) (atom k') := by
  refine .bind .here fun start => .bind .look fun kind => ?_
  split
  · exact .bind .take fun _ => .pure
  · exact h.strings
  · exact .bind .take fun _ => .nested (parenthesized_parallel h)
  · exact .bind .take fun _ => .nested (listDisplay_parallel h)
  · exact .bind .take fun _ => .nested (braceDisplay_parallel h)
  · split
    · exact .bind .take fun _ => .pure
    · exact .unexpected

theorem postfixed_parallel {start : Pos} {owner : Expr} :
    Rule.Parallel Given (postfixed k start owner) (postfixed k' start owner) := by
  refine .bind .accept fun _ => .ite ?_ (.bind .accept fun _ => .ite ?_
    (.bind .accept fun _ => .ite ?_ .pure))
  · exact (arguments_parallel h).bind fun _ => .bind .spanFrom fun _ => .pure
  · exact (slices_parallel h).bind fun _ => .bind .expect fun _ => .bind .spanFrom fun _ => .pure
  · exact .bind .name fun _ => .bind .spanFrom fun _ => .pure

theorem primary_parallel : Rule.Parallel Given (primary k) (primary k') :=
  .bind .here fun _ => (atom_parallel h).bind fun _ => .loop fun _ => postfixed_parallel h

theorem power_parallel : Rule.Parallel Given (power k) (power k') := by
  refine .bind .here fun _ => .bind .accept fun _ =>
    .ite ((primary_parallel h).bind fun _ => .bind .spanFrom fun _ => Parallel.pure.bind ?rest)
      ((primary_parallel h).bind ?rest)
  exact fun _ => .bind .accept fun _ => .ite
    ((Parallel.nested h.factor).bind fun _ => .bind .spanFrom fun _ => .pure) .pure

theorem factor_parallel : Rule.Parallel Given (factor k) (factor k') := by
  refine .bind .here fun _ => .bind .look fun kind => ?_
  split
  · exact .bind .take fun _ => (Parallel.nested h.factor).bind fun _ =>
      .bind .spanFrom fun _ => .pure
  · exact power_parallel h

/-! ### Operations and whole expressions -/

theorem firstOperand_parallel {min : Level} :
    Rule.Parallel Given (firstOperand k min) (firstOperand k' min) := by
  refine .bind .here fun start => ?_
  refine .ite (.bind .accept ?rest) (.bind .pure ?rest)
  exact fun _ => .ite
    ((Parallel.nested (h.operation _)).bind fun _ => .bind .spanFrom fun _ => .pure)
    (factor_parallel h)

theorem comparison_parallel : Rule.Parallel Given (comparison k) (comparison k') := by
  refine .bind .look fun _ => .bind .lookAhead fun _ => ?_
  split
  · exact .pure
  · exact .bind .take fun _ => .ite (.bind .take fun _ => (h.operation _).bind fun _ => .pure)
      ((h.operation _).bind fun _ => .pure)

theorem extend_parallel {min : Level} {start : Pos} {left : Expr} :
    Rule.Parallel Given (extend k min start left) (extend k' min start left) := by
  refine .bind .look fun _ => .bind .lookAhead fun _ => ?_
  split
  · exact .pure
  · refine .ite .pure ?_
    split
    · exact (Parallel.many (.when? .accept (h.operation _))).bind fun _ =>
        .bind .spanFrom fun _ => .pure
    · exact (Parallel.many (comparison_parallel h)).bind fun _ => .bind .spanFrom fun _ => .pure
    · exact .bind .take fun _ => (h.operation _).bind fun _ => .bind .spanFrom fun _ => .pure

theorem operation_parallel {min : Level} :
    Rule.Parallel Given (operation k min) (operation k' min) :=
  .bind .here fun _ => (firstOperand_parallel h).bind fun _ => .loop fun _ => extend_parallel h

theorem lambda_parallel : Rule.Parallel Given (lambda k) (lambda k') :=
  .bind .here fun _ => .bind .expect fun _ => (parameters_parallel h).bind fun _ =>
    .bind .expect fun _ => h.expression.bind fun _ => .bind .spanFrom fun _ => .pure

theorem expression_parallel : Rule.Parallel Given (expression k) (expression k') := by
  refine .nested (.bind .isNext fun _ => .ite (lambda_parallel h) (.bind .here fun _ => ?_))
  refine (operation_parallel h).bind fun _ => .bind .accept fun _ => .ite ?_ .pure
  exact (operation_parallel h).bind fun _ => .bind .expect fun _ =>
    h.expression.bind fun _ => .bind .spanFrom fun _ => .pure

end

/-! ### Rounds -/

section

variable {hole hole' : Nat → String → Except Error Expr}

/-- However much room there is for coming back, only string literals make a difference. -/
theorem rounds_parallel_of_strings
    (literals : ∀ k k' : Knot, k.hole = hole → k'.hole = hole' →
      Rule.Parallel Given (strings k) (strings k')) (size : Nat) :
    Knot.Parallel Given
      ⟨expressionWithin hole size, operationWithin hole size, factorWithin hole size, hole⟩
      ⟨expressionWithin hole' size, operationWithin hole' size, factorWithin hole' size, hole'⟩ := by
  induction size with
  | zero =>
    refine ⟨?_, fun min => ?_, ?_, literals _ _ rfl rfl⟩
    · simp only [expressionWithin]
      exact .unexpected
    · simp only [operationWithin]
      exact .unexpected
    · simp only [factorWithin]
      exact .unexpected
  | succ size ih =>
    refine ⟨?_, fun min => ?_, ?_, literals _ _ rfl rfl⟩
    · simp only [expressionWithin]
      exact expression_parallel ih
    · simp only [operationWithin]
      exact operation_parallel ih
    · simp only [factorWithin]
      exact factor_parallel ih

variable (given : ∀ k k' : Knot, k.hole = hole → k'.hole = hole' → ∀ source span,
    Given Expr (holeValue k source span) (holeValue k' source span))
include given

/-- Of string literals only the holes make a difference. -/
theorem rounds_parallel (size : Nat) :
    Knot.Parallel Given
      ⟨expressionWithin hole size, operationWithin hole size, factorWithin hole size, hole⟩
      ⟨expressionWithin hole' size, operationWithin hole' size, factorWithin hole' size, hole'⟩ :=
  rounds_parallel_of_strings (fun k k' same same' => strings_parallel fun source span =>
    .given (given k k' same same' source span)) size

theorem knot_parallel (size : Nat) : Knot.Parallel Given (knot hole size) (knot hole' size) :=
  rounds_parallel given (size + 1)

end

end Grammar

end ScoreScript.Script
