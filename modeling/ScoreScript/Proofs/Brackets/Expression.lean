import ScoreScript.Proofs.Brackets.Rule
import ScoreScript.Proofs.Grammar.Climbing

/-!
The rules for expressions close the brackets that they open. What reads the inside of brackets
closes the one that has been opened before it.
-/

namespace ScoreScript.Script

namespace Grammar

open Bracket Rule

/-- The rules that an expression may come back to close the brackets that they open. -/
structure KnotCloses (k : Knot) : Prop where
  expression : Closes [] k.expression
  operation : ∀ min, Closes [] (k.operation min)
  factor : Closes [] k.factor

variable {k : Knot} {s : Stream} {opened : List Bracket}

/-! ### Lists of expressions -/

theorem isExpressionEnd_closes : Closes [] isExpressionEnd := by
  refine .look fun s => ?_
  split <;> exact Closes.pure s

theorem tupleOr_closes {isEnd : Rule Bool} {item : Rule Expr} (e : Closes [] isEnd)
    (h : Closes [] item) : Closes [] (tupleOr isEnd item) :=
  .skip .here fun _ => h.skip fun _ => .skip .isNext fun _ =>
    .ite ((Closes.furtherItems e h).skip fun _ => .skip .spanFrom fun _ => .pure) .pure

/-- Literals that stand next to each other are read token by token; the rest is made of what is in
them. -/
theorem strings_closes : Closes [] (strings k) := by
  refine .skip .here fun start => .skip (.loop fun j => .look fun s => ?_) fun _ =>
    .skip .spanFrom fun _ => .pure
  split
  · rename_i value kind found
    refine .takenKind found rfl fun token => .map (.of_quiet fun n s j' t done => ?_)
    exact (joinLiteral_fills done).1
  · exact Closes.pure s

section

variable (h : KnotCloses k)
include h

theorem starredOperand_closes : Closes [] (starredOperand k) :=
  .skip .here fun _ => .accept rfl ((h.operation _).skip fun _ => .skip .spanFrom fun _ => .pure)
    (h.operation _)

theorem starredExpression_closes : Closes [] (starredExpression k) :=
  .skip .isNext fun _ => .ite (starredOperand_closes h) h.expression

theorem expressions_closes : Closes [] (expressions k) :=
  tupleOr_closes isExpressionEnd_closes (starredExpression_closes h)

theorem namedExpression_closes : Closes [] (namedExpression k) := by
  refine .skip .here fun start => h.expression.skip fun target => .ifNext (fun s found => ?_) .pure
  rw [if_pos rfl]
  split
  · exact .takenKind found rfl fun _ => h.expression.skip fun _ => .skip .spanFrom fun _ => .pure
  · exact Closes.fail s

theorem loopTarget_closes : Closes [] (loopTarget k) :=
  (tupleOr_closes .isNext (starredOperand_closes h)).skip fun _ => .lift

theorem comprehension_closes : Closes [] (comprehension k) :=
  .skip .here fun _ => .expect rfl ((loopTarget_closes h).skip fun _ => .expect rfl
    ((h.operation _).skip fun _ => (Closes.many (.behind rfl (h.operation _))).skip fun _ =>
      .skip .spanFrom fun _ => .pure))

theorem comprehensions_closes : Closes [] (comprehensions k) :=
  .many (.when? .isNext (comprehension_closes h))

theorem yieldExpression_closes : Closes [] (yieldExpression k) := by
  have present : Closes [] (return !(← isExpressionEnd)) :=
    isExpressionEnd_closes.skip fun _ => .pure
  refine .skip .here fun _ => .expect rfl (.accept rfl ?_ ?_)
  · exact h.expression.skip fun _ => .skip .spanFrom fun _ => .pure
  · exact (Closes.when? present (expressions_closes h)).skip fun _ => .skip .spanFrom fun _ => .pure

/-! ### Inside of brackets -/

omit h in
theorem pass_closing (b : Bracket) : pass [b] (Mark.op b.closing).kind = some [] := by
  cases b <;> rfl

theorem displayItems_closes {first : Expr} (b : Bracket) :
    Closes [b] (displayItems k first (.op b.closing)) :=
  .skip (.furtherItems .isNext (starredExpression_closes h)) fun _ =>
    .expect (pass_closing b) .pure

theorem displayClauses_closes (b : Bracket) : Closes [b] (displayClauses k (.op b.closing)) :=
  (comprehensions_closes h).skip fun _ => .expect (pass_closing b) .pure

theorem parenthesized_closes {start : Pos} : Closes [round] (parenthesized k start) := by
  refine .accept rfl (.skip .spanFrom fun _ => .pure) (.skip .isNext fun _ => .ite ?_ ?_)
  · exact (yieldExpression_closes h).skip fun _ => .expect rfl .pure
  refine .skip .isNext fun _ => .ite ((starredOperand_closes h).skip ?rest)
    ((namedExpression_closes h).skip ?rest)
  exact fun first => .skip .isNext fun _ => .ite
    ((displayClauses_closes h round).bind fun _ => .skip .spanFrom fun _ => .pure)
    (.accept rfl .pure ((displayItems_closes h round).bind fun _ => .skip .spanFrom fun _ => .pure))

theorem listDisplay_closes {start : Pos} : Closes [square] (listDisplay k start) :=
  .accept rfl (.skip .spanFrom fun _ => .pure) ((starredExpression_closes h).skip fun _ =>
    .skip .isNext fun _ => .ite
      ((displayClauses_closes h square).bind fun _ => .skip .spanFrom fun _ => .pure)
      ((displayItems_closes h square).bind fun _ => .skip .spanFrom fun _ => .pure))

theorem dictEntry_closes : Closes [] (dictEntry k) :=
  .accept rfl ((h.operation _).skip fun _ => .pure)
    (h.expression.skip fun _ => .expect rfl (h.expression.skip fun _ => .pure))

theorem dictFrom_closes {start : Pos} {first : DictEntry} :
    Closes [brace] (dictFrom k start first) :=
  .skip (.furtherItems .isNext (dictEntry_closes h)) fun _ => .expect rfl
    (.skip .spanFrom fun _ => .pure)

theorem braceDisplay_closes {start : Pos} : Closes [brace] (braceDisplay k start) := by
  refine .accept rfl (.skip .spanFrom fun _ => .pure) (.accept rfl ?_ ?_)
  · exact (h.operation _).skip fun _ => dictFrom_closes h
  refine (starredExpression_closes h).skip fun first => .accept rfl ?_ ?_
  · exact h.expression.skip fun _ => .skip .isNext fun _ => .ite
      ((displayClauses_closes h brace).bind fun _ => .skip .spanFrom fun _ => .pure)
      (dictFrom_closes h)
  · exact .skip .isNext fun _ => .ite
      ((displayClauses_closes h brace).bind fun _ => .skip .spanFrom fun _ => .pure)
      ((displayItems_closes h brace).bind fun _ => .skip .spanFrom fun _ => .pure)

/-! ### Arguments, indices and parameters -/

omit h in
theorem ifKeyword_closes {β : Type} {next : Bool → Rule β}
    (found : ∀ s id, s.current.kind = .name id → s.second.kind = .op .assign →
      ClosesAt opened (next true) s)
    (absent : Closes opened (next false)) : Closes opened (isKeywordNext >>= next) := by
  intro s n b u done
  obtain ⟨⟨named, t⟩, first, second⟩ :=
    ok_of_bind (show isKeywordNext n s >>= _ = .ok (b, u) from done)
  obtain ⟨-, rfl, known⟩ := isKeywordNext_ensures named t first
  cases named with
  | true =>
    obtain ⟨⟨id, here⟩, behind⟩ := known rfl
    exact found t id here behind n b u second
  | false => exact absent t n b u second

theorem positionalArgument_closes {start : Pos} : Closes [] (positionalArgument k start) :=
  (namedExpression_closes h).skip fun _ => .skip .isNext fun _ => .ite
    ((comprehensions_closes h).skip fun _ => .skip .spanFrom fun _ => .pure) .pure

theorem argument_closes {read : Arguments} : Closes [] (argument k read) := by
  refine .skip .here fun start => .accept rfl ?_ (.accept rfl ?_ (ifKeyword_closes ?_ ?_))
  · exact h.expression.skip fun _ => .skip .spanFrom fun _ => .pure
  · exact h.expression.skip fun _ => .skip .spanFrom fun _ => .pure
  · intro s id first second
    have assign : s.advance.current.kind = .op .assign := by
      rw [s.current_advance (by rw [first]; rfl), second]
    rw [if_pos rfl]
    refine .named first (.takenKind assign rfl fun _ => h.expression.skip fun _ => ?_)
    exact .skip .spanFrom fun _ => .ite .fail .pure
  · rw [if_neg Bool.false_ne_true]
    exact (positionalArgument_closes h).skip fun _ => .ite .pure .fail

theorem arguments_closes : Closes [round] (arguments k) :=
  .skip (.addItems .isNext fun _ => argument_closes h) fun _ => .expect rfl .pure

theorem sliceBound_closes : Closes [] (sliceBound k) := by
  refine .look fun s => ?_
  split
  iterate 3 exact Closes.pure s
  exact h.expression.map s

theorem sliceFrom_closes {start : Pos} {lower : Option Expr} :
    Closes [] (sliceFrom k start lower) := by
  refine .expect rfl ((sliceBound_closes h).skip fun _ => .accept rfl
    ((sliceBound_closes h).skip ?rest) (Closes.pure.skip ?rest))
  exact fun _ => .skip .spanFrom fun _ => .pure

theorem slice_closes : Closes [] (slice k) :=
  .skip .here fun _ => .skip .isNext fun _ => .ite (sliceFrom_closes h)
    ((starredExpression_closes h).skip fun _ => .skip .isNext fun _ =>
      .ite (sliceFrom_closes h) .pure)

theorem slices_closes : Closes [] (slices k) :=
  tupleOr_closes .isNext (slice_closes h)

theorem param_closes {annotated : Bool} : Closes [] (param k annotated) := by
  refine .skip .here fun _ => .name fun _ =>
    .ite ((Closes.behind rfl h.expression).skip ?rest) (Closes.pure.skip ?rest)
  exact fun _ => .skip .spanFrom fun _ => .pure

theorem paramEntry_closes {annotated : Bool} {closing : Mark} :
    Closes [] (paramEntry k annotated closing) := by
  refine .accept rfl .pure (.accept rfl ?_ (.accept rfl ?_ ?_))
  · exact (param_closes h).skip fun _ => .pure
  · exact .skip .isNext fun _ => .ite .pure (.skip .isNext fun _ => .ite .pure
      ((param_closes h).skip fun _ => .pure))
  · refine (param_closes h).skip fun entry => ?_
    obtain ⟨name, hint, _, span⟩ := entry
    exact (Closes.behind rfl h.expression).skip fun _ => .pure

theorem parameters_closes {annotated : Bool} {closing : Mark} :
    Closes [] (parameters k annotated closing) :=
  (Closes.items .isNext (paramEntry_closes h)).skip fun _ => .pure

/-! ### Operands -/

omit h in
theorem pass_constant {kind : TokenKind} {value : Constant}
    (found : constantOf? kind = some value) : pass [] kind = some [] := by
  unfold constantOf? at found
  split at found <;> first | rfl | cases found

theorem atom_closes : Closes [] (atom k) := by
  refine .skip .here fun start => .look fun s => ?_
  split <;> rename_i found
  · exact .takenKind found rfl fun _ => .pure
  · exact strings_closes s
  · exact .takenKind found rfl fun _ => .nested (parenthesized_closes h)
  · exact .takenKind found rfl fun _ => .nested (listDisplay_closes h)
  · exact .takenKind found rfl fun _ => .nested (braceDisplay_closes h)
  · split
    · rename_i constant
      exact .taken (pass_constant constant) fun _ => .pure
    · exact Closes.unexpected s

theorem postfixed_closes {start : Pos} {owner : Expr} : Closes [] (postfixed k start owner) := by
  refine .accept rfl ?_ (.accept rfl ?_ (.accept rfl ?_ .pure))
  · exact (arguments_closes h).bind fun _ => .skip .spanFrom fun _ => .pure
  · exact (slices_closes h).skip fun _ => .expect rfl (.skip .spanFrom fun _ => .pure)
  · exact .name fun _ => .skip .spanFrom fun _ => .pure

theorem primary_closes : Closes [] (primary k) :=
  .skip .here fun _ => (atom_closes h).skip fun _ => .loop fun _ => postfixed_closes h

theorem power_closes : Closes [] (power k) := by
  refine .skip .here fun _ => .accept rfl
    ((primary_closes h).skip fun _ => .skip .spanFrom fun _ => Closes.pure.skip ?rest)
    ((primary_closes h).skip ?rest)
  exact fun _ => .accept rfl ((Closes.nested h.factor).skip fun _ => .skip .spanFrom fun _ => .pure)
    .pure

theorem factor_closes : Closes [] (factor k) := by
  refine .skip .here fun start => .look fun s => ?_
  split
  · rename_i op sign
    have passed : pass [] s.current.kind = some [] := by
      unfold UnaryOperator.ofKind? at sign
      split at sign <;> rename_i kind <;> first | (rw [kind]; rfl) | cases sign
    exact .taken passed fun _ => (Closes.nested h.factor).skip fun _ =>
      .skip .spanFrom fun _ => .pure
  · exact power_closes h s

/-! ### Operations and whole expressions -/

theorem firstOperand_closes {min : Level} : Closes [] (firstOperand k min) := by
  have negation {start : Pos} : Closes [] (do
      let operand ← nested (k.operation .not)
      return Expr.unary .not operand (← spanFrom start)) :=
    (Closes.nested (h.operation _)).skip fun _ => .skip .spanFrom fun _ => .pure
  refine .skip .here fun start => .ite (.accept rfl negation (factor_closes h)) ?_
  exact Closes.pure.skip fun _ => .ite negation (factor_closes h)

omit h in
theorem pass_comparison {first second : TokenKind} {op : CompareOperator} {isLong : Bool}
    (found : CompareOperator.ofKinds? first second = some (op, isLong)) :
    pass [] first = some [] ∧ first.isEof = false ∧ (isLong = true → pass [] second = some []) := by
  unfold CompareOperator.ofKinds? at found
  split at found <;> cases found <;> refine ⟨rfl, rfl, fun long => ?_⟩ <;>
    first | rfl | cases long

theorem comparison_closes : Closes [] (comparison k) := by
  have operand {op : CompareOperator} : Closes []
      (do return some (Comparison.mk op (← k.operation Level.compare.next))) :=
    (h.operation _).skip fun _ => .pure
  refine .look fun s => .ahead ?_
  split
  · exact Closes.pure s
  · rename_i op isLong found
    obtain ⟨first, more, second⟩ := pass_comparison found
    refine .passed first (fun _ => rfl) ?_
    cases isLong with
    | true => exact .taken (by rw [s.current_advance more, second rfl]) fun _ => operand
    | false => exact operand _

omit h in
theorem pass_joint {first second : TokenKind} {level : Level} {op : BinaryOperator}
    (found : Joint.ofKinds? first second = some (level, .binary op)) :
    pass [] first = some [] := by
  cases first with
  | op sign => cases sign <;> first | rfl | cases found
  | _ => rfl

theorem extend_closes {min : Level} {start : Pos} {left : Expr} :
    Closes [] (extend k min start left) := by
  refine .look fun s => .ahead ?_
  split
  · exact Closes.pure s
  · rename_i level joint found
    split
    · exact Closes.pure s
    · split
      · exact ((Closes.many (.behind rfl (h.operation _))).skip fun _ =>
          .skip .spanFrom fun _ => .pure) s
      · exact ((Closes.many (comparison_closes h)).skip fun _ => .skip .spanFrom fun _ => .pure) s
      · exact .taken (pass_joint found) fun _ => (h.operation _).skip fun _ =>
          .skip .spanFrom fun _ => .pure

theorem operation_closes {min : Level} : Closes [] (operation k min) :=
  .skip .here fun _ => (firstOperand_closes h).skip fun _ => .loop fun _ => extend_closes h

theorem lambda_closes : Closes [] (lambda k) :=
  .skip .here fun _ => .expect rfl ((parameters_closes h).skip fun _ => .expect rfl
    (h.expression.skip fun _ => .skip .spanFrom fun _ => .pure))

theorem expression_closes : Closes [] (expression k) := by
  refine .nested (.skip .isNext fun _ => .ite (lambda_closes h) (.skip .here fun start => ?_))
  refine (operation_closes h).skip fun body => .accept rfl ?_ .pure
  exact (operation_closes h).skip fun _ => .expect rfl
    (h.expression.skip fun _ => .skip .spanFrom fun _ => .pure)

end

/-- However often they come back to each other, the rules for expressions close the brackets that
they open. -/
theorem rounds_closes (hole : Nat → String → Except Error Expr) (size : Nat) :
    KnotCloses (rounds hole size) := by
  induction size with
  | zero =>
    refine ⟨?_, fun min => ?_, ?_⟩ <;> exact fun _ _ _ _ failed => nomatch failed
  | succ size ih =>
    rw [rounds_succ]
    exact ⟨expression_closes ih, fun min => operation_closes ih, factor_closes ih⟩

end Grammar

end ScoreScript.Script
