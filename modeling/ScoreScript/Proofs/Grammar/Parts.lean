import ScoreScript.Proofs.Nesting.Rule
import ScoreScript.Script.Grammar.Expression

/-!
Rules that do the same. Two rules may differ in what they do once many tokens have been read, as do
those that come back to others with more or less room; on short streams there is no difference.
`Rule.Matches` says so of one stream, along with what the rules ensure there, and `Rule.Alike` of all
streams that are short enough. The rules for what stands in brackets, which are entered after a
bracket or a word has been read, do the same whenever the rules do that they come back to.
-/

namespace ScoreScript.Script

namespace Rule

variable {α β : Type} {n : Nesting} {s : Stream}

/-- From the stream both rules read the same, and what that ensures. -/
structure Matches (n : Nesting) (rule rule' : Rule α) (s : Stream)
    (P : α → Stream → Prop) : Prop where
  same : rule n s = rule' n s
  ensures : Ensures n rule s P

/-- On streams of fewer than `m` tokens both rules read the same, and give no token back. -/
def Alike (m : Nat) (rule rule' : Rule α) : Prop :=
  ∀ n s, s.size < m → Matches n rule rule' s fun _ _ => True

namespace Matches

variable {rule rule' : Rule α} {P : α → Stream → Prop} {Q : β → Stream → Prop}

theorem refl (h : Ensures n rule s P) : Matches n rule rule s P :=
  ⟨rfl, h⟩

theorem pure {a : α} (h : P a s) : Matches n (Pure.pure a) (Pure.pure a) s P :=
  refl (.pure h)

theorem bind {next next' : α → Rule β} (h : Matches n rule rule' s P)
    (h' : ∀ a t, t.size ≤ s.size → P a t → Matches n (next a) (next' a) t Q) :
    Matches n (rule >>= next) (rule' >>= next') s Q := by
  refine ⟨?_, h.ensures.bind fun a t le holds => (h' a t le holds).ensures⟩
  change rule n s >>= (fun (a, t) => next a n t) = rule' n s >>= fun (a, t) => next' a n t
  rw [← h.same]
  cases first : rule n s with
  | error e => rfl
  | ok result =>
    obtain ⟨le, holds⟩ := h.ensures _ _ first
    exact (h' _ _ le holds).same

/-- Loops do the same whose rounds do. -/
theorem loop {round round' : α → Rule (Option α)} {m : Nat}
    (each : ∀ a s, s.size < m → Matches n (round a) (round' a) s fun _ _ => True) {a : α}
    (short : s.size < m) : Matches n (loop round a) (Rule.loop round' a) s fun _ _ => True := by
  refine ⟨?_, Ensures.loop (I := fun _ s => s.size < m) (fun a s short b? t done => ?_) short⟩
  · induction size : s.size using Nat.strongRecOn generalizing a s with
    | ind size' ih =>
      rw [Rule.loop, Rule.loop, ← (each a s short).same]
      cases round a n s with
      | error e => rfl
      | ok result =>
        obtain ⟨b?, after⟩ := result
        cases b? with
        | none => rfl
        | some b =>
          dsimp only
          split
          · rename_i less
            exact ih after.size (size ▸ less) (Nat.lt_trans less short) rfl
          · rfl
  · have le := ((each a s short).ensures b? t done).1
    exact ⟨le, fun _ => trivial, fun b _ => ⟨Nat.lt_of_le_of_lt le short, .inr trivial⟩⟩

end Matches

namespace Alike

variable {m : Nat} {rule rule' : Rule α}

theorem refl (h : ∀ n, Yields n rule fun _ => True) : Alike m rule rule :=
  fun n s _ => .refl (h n s)

theorem mono {m' : Nat} (h : Alike m rule rule') (le : m' ≤ m) : Alike m' rule rule' :=
  fun n s short => h n s (Nat.lt_of_lt_of_le short le)

theorem pure {a : α} : Alike m (Pure.pure a : Rule α) (Pure.pure a) :=
  refl fun _ => .pure trivial

theorem bind {next next' : α → Rule β} (h : Alike m rule rule')
    (h' : ∀ a, Alike m (next a) (next' a)) : Alike m (rule >>= next) (rule' >>= next') :=
  fun n s short => (h n s short).bind fun a t le _ => h' a n t (Nat.lt_of_le_of_lt le short)

/-- A first part that is the same in both. -/
theorem after {first : Rule β} {next next' : β → Rule α}
    (h : ∀ n, Yields n first fun _ => True) (h' : ∀ b, Alike m (next b) (next' b)) :
    Alike m (first >>= next) (first >>= next') :=
  (refl h).bind h'

theorem map {f : α → β} (h : Alike m rule rule') : Alike m (f <$> rule) (f <$> rule') :=
  have all : Alike m (rule >>= fun a => Pure.pure (f a)) (rule' >>= fun a => Pure.pure (f a)) :=
    h.bind fun _ => pure
  all

theorem ite {c : Prop} [Decidable c] {other other' : Rule α} (h : Alike m rule rule')
    (h' : Alike m other other') :
    Alike m (if c then rule else other) (if c then rule' else other') := by
  split
  · exact h
  · exact h'

theorem fail {cause : GrammarError} {span : Span} :
    Alike m (Rule.fail cause span : Rule α) (Rule.fail cause span) :=
  refl fun _ => .fail

theorem lift {result : Except Error α} : Alike m (Rule.lift result) (Rule.lift result) :=
  refl fun _ => .lift fun _ _ => trivial

/-- Rules that are alike are so one level deeper. -/
theorem nested (h : Alike m rule rule') : Alike m (Rule.nested rule) (Rule.nested rule') := by
  intro n s short
  constructor
  · unfold Rule.nested
    rw [(h ⟨n.limit, n.depth + 1⟩ s short).same]
  · intro a t done
    unfold Rule.nested at done
    split at done
    · exact (h _ s short).ensures a t done
    · cases done

theorem when? {present : Rule Bool} (p : ∀ n, Yields n present fun _ => True)
    (h : Alike m rule rule') : Alike m (Rule.when? present rule) (Rule.when? present rule') :=
  after p fun _ => ite h.map pure

theorem loop {round round' : α → Rule (Option α)} (h : ∀ a, Alike m (round a) (round' a)) {a : α} :
    Alike m (Rule.loop round a) (Rule.loop round' a) :=
  fun n _ => Matches.loop fun a s => h a n s

theorem many {round round' : Rule (Option α)} (h : Alike m round round') :
    Alike m (Rule.many round) (Rule.many round') :=
  (loop fun _ => h.bind fun _ => pure).bind fun _ => pure

theorem addFurther {isEnd : Rule Bool} {add add' : α → Rule α} {a : α}
    (e : ∀ n, Yields n isEnd fun _ => True) (h : ∀ a, Alike m (add a) (add' a)) :
    Alike m (Rule.addFurther isEnd add a) (Rule.addFurther isEnd add' a) :=
  loop fun a => after (fun _ => .accept) fun _ => ite (after e fun _ => ite pure (h a).map) pure

theorem addItems {isEnd : Rule Bool} {add add' : α → Rule α} {a : α}
    (e : ∀ n, Yields n isEnd fun _ => True) (h : ∀ a, Alike m (add a) (add' a)) :
    Alike m (Rule.addItems isEnd add a) (Rule.addItems isEnd add' a) :=
  after e fun _ => ite pure ((h a).bind fun _ => addFurther e h)

theorem furtherItems {isEnd : Rule Bool} {first : α} (e : ∀ n, Yields n isEnd fun _ => True)
    (h : Alike m rule rule') :
    Alike m (Rule.furtherItems isEnd rule first) (Rule.furtherItems isEnd rule' first) :=
  (addFurther e fun _ => h.bind fun _ => pure).bind fun _ => pure

theorem items {isEnd : Rule Bool} (e : ∀ n, Yields n isEnd fun _ => True)
    (h : Alike m rule rule') : Alike m (Rule.items isEnd rule) (Rule.items isEnd rule') :=
  (addItems e fun _ => h.bind fun _ => pure).bind fun _ => pure

end Alike

end Rule

end ScoreScript.Script

namespace ScoreScript.Script

open Rule

/-- On streams of fewer than `m` tokens the rules of both knots do the same, and the holes of format
strings are read in the same way. -/
structure Knot.Alike (m : Nat) (k k' : Knot) : Prop where
  expression : Rule.Alike m k.expression k'.expression
  operation : ∀ min, Rule.Alike m (k.operation min) (k'.operation min)
  factor : Rule.Alike m k.factor k'.factor
  hole : k.hole = k'.hole

theorem Knot.Alike.mono {m m' : Nat} {k k' : Knot} (h : Knot.Alike m k k') (le : m' ≤ m) :
    Knot.Alike m' k k' :=
  ⟨h.expression.mono le, fun min => (h.operation min).mono le, h.factor.mono le, h.hole⟩

namespace Grammar

variable {m : Nat} {k k' : Knot}

theorem isNext_yields {mark : Mark} (n : Nesting) : Yields n (isNext mark) fun _ => True :=
  .isNext

theorem accept_yields {mark : Mark} (n : Nesting) : Yields n (accept mark) fun _ => True :=
  .accept

/-! ### Lists of expressions -/

theorem tupleOr_alike {isEnd : Rule Bool} {item item' : Rule Expr}
    (e : ∀ n, Yields n isEnd fun _ => True) (h : Rule.Alike m item item') :
    Rule.Alike m (tupleOr isEnd item) (tupleOr isEnd item') :=
  .after (fun _ => .here) fun _ => h.bind fun _ => .after isNext_yields fun _ =>
    .ite ((Alike.furtherItems e h).bind fun _ => .after (fun _ => .spanFrom) fun _ => .pure) .pure

section

variable (h : Knot.Alike m k k')
include h

theorem starredOperand_alike : Rule.Alike m (starredOperand k) (starredOperand k') :=
  .after (fun _ => .here) fun _ => .after accept_yields fun _ =>
    .ite ((h.operation _).bind fun _ => .after (fun _ => .spanFrom) fun _ => .pure) (h.operation _)

theorem starredExpression_alike : Rule.Alike m (starredExpression k) (starredExpression k') :=
  .after isNext_yields fun _ => .ite (starredOperand_alike h) h.expression

theorem expressions_alike : Rule.Alike m (expressions k) (expressions k') :=
  tupleOr_alike (fun _ => isExpressionEnd_yields) (starredExpression_alike h)

theorem namedExpression_alike : Rule.Alike m (namedExpression k) (namedExpression k') := by
  refine .after (fun _ => .here) fun _ => h.expression.bind fun target =>
    .after isNext_yields fun _ => .ite ?_ .pure
  split
  · exact .after (fun _ => .take) fun _ => h.expression.bind fun _ =>
      .after (fun _ => .spanFrom) fun _ => .pure
  · exact .fail

theorem loopTarget_alike : Rule.Alike m (loopTarget k) (loopTarget k') :=
  (tupleOr_alike isNext_yields (starredOperand_alike h)).bind fun _ => .lift

theorem comprehension_alike : Rule.Alike m (comprehension k) (comprehension k') :=
  .after (fun _ => .here) fun _ => .after (fun _ => .expect) fun _ =>
    (loopTarget_alike h).bind fun _ => .after (fun _ => .expect) fun _ =>
      (h.operation _).bind fun _ => (Alike.many (.when? accept_yields (h.operation _))).bind fun _ =>
        .after (fun _ => .spanFrom) fun _ => .pure

theorem comprehensions_alike : Rule.Alike m (comprehensions k) (comprehensions k') :=
  .many (.when? isNext_yields (comprehension_alike h))

theorem yieldExpression_alike : Rule.Alike m (yieldExpression k) (yieldExpression k') := by
  refine .after (fun _ => .here) fun _ => .after (fun _ => .expect) fun _ =>
    .after accept_yields fun _ => .ite ?_ ?_
  · exact h.expression.bind fun _ => .after (fun _ => .spanFrom) fun _ => .pure
  · have present (n : Nesting) : Yields n (do return !(← isExpressionEnd)) fun _ => True :=
      .skip isExpressionEnd_yields fun _ => .pure trivial
    exact (Alike.when? present (expressions_alike h)).bind fun _ =>
      .after (fun _ => .spanFrom) fun _ => .pure

/-! ### Displays -/

theorem displayItems_alike {first : Expr} {closing : Mark} :
    Rule.Alike m (displayItems k first closing) (displayItems k' first closing) :=
  (Alike.furtherItems isNext_yields (starredExpression_alike h)).bind fun _ =>
    .after (fun _ => .expect) fun _ => .pure

theorem displayClauses_alike {closing : Mark} :
    Rule.Alike m (displayClauses k closing) (displayClauses k' closing) :=
  (comprehensions_alike h).bind fun _ => .after (fun _ => .expect) fun _ => .pure

theorem parenthesized_alike {start : Pos} :
    Rule.Alike m (parenthesized k start) (parenthesized k' start) := by
  refine .after accept_yields fun _ => .ite (.after (fun _ => .spanFrom) fun _ => .pure) ?_
  refine .after isNext_yields fun _ => .ite ?_ ?_
  · exact (yieldExpression_alike h).bind fun _ => .after (fun _ => .expect) fun _ => .pure
  · refine .after isNext_yields fun _ => .ite ((starredOperand_alike h).bind ?rest)
      ((namedExpression_alike h).bind ?rest)
    exact fun _ => .after isNext_yields fun _ => .ite
      ((displayClauses_alike h).bind fun _ => .after (fun _ => .spanFrom) fun _ => .pure)
      (.after accept_yields fun _ => .ite .pure
        ((displayItems_alike h).bind fun _ => .after (fun _ => .spanFrom) fun _ => .pure))

theorem listDisplay_alike {start : Pos} :
    Rule.Alike m (listDisplay k start) (listDisplay k' start) :=
  .after accept_yields fun _ => .ite (.after (fun _ => .spanFrom) fun _ => .pure)
    ((starredExpression_alike h).bind fun _ => .after isNext_yields fun _ => .ite
      ((displayClauses_alike h).bind fun _ => .after (fun _ => .spanFrom) fun _ => .pure)
      ((displayItems_alike h).bind fun _ => .after (fun _ => .spanFrom) fun _ => .pure))

theorem dictEntry_alike : Rule.Alike m (dictEntry k) (dictEntry k') :=
  .after accept_yields fun _ => .ite ((h.operation _).bind fun _ => .pure)
    (h.expression.bind fun _ => .after (fun _ => .expect) fun _ => h.expression.bind fun _ => .pure)

theorem dictFrom_alike {start : Pos} {first : DictEntry} :
    Rule.Alike m (dictFrom k start first) (dictFrom k' start first) :=
  (Alike.furtherItems isNext_yields (dictEntry_alike h)).bind fun _ =>
    .after (fun _ => .expect) fun _ => .after (fun _ => .spanFrom) fun _ => .pure

theorem braceDisplay_alike {start : Pos} :
    Rule.Alike m (braceDisplay k start) (braceDisplay k' start) := by
  refine .after accept_yields fun _ => .ite (.after (fun _ => .spanFrom) fun _ => .pure) ?_
  refine .after accept_yields fun _ => .ite ((h.operation _).bind fun _ => dictFrom_alike h) ?_
  refine (starredExpression_alike h).bind fun _ => .after accept_yields fun _ => .ite ?_ ?_
  · exact h.expression.bind fun _ => .after isNext_yields fun _ => .ite
      ((displayClauses_alike h).bind fun _ => .after (fun _ => .spanFrom) fun _ => .pure)
      (dictFrom_alike h)
  · exact .after isNext_yields fun _ => .ite
      ((displayClauses_alike h).bind fun _ => .after (fun _ => .spanFrom) fun _ => .pure)
      ((displayItems_alike h).bind fun _ => .after (fun _ => .spanFrom) fun _ => .pure)

/-! ### Arguments, slices and parameters -/

theorem positionalArgument_alike {start : Pos} :
    Rule.Alike m (positionalArgument k start) (positionalArgument k' start) :=
  (namedExpression_alike h).bind fun _ => .after isNext_yields fun _ => .ite
    ((comprehensions_alike h).bind fun _ => .after (fun _ => .spanFrom) fun _ => .pure) .pure

theorem argument_alike {read : Arguments} :
    Rule.Alike m (argument k read) (argument k' read) := by
  refine .after (fun _ => .here) fun start => .after accept_yields fun _ => .ite ?_ ?_
  · exact h.expression.bind fun _ => .after (fun _ => .spanFrom) fun _ => .pure
  refine .after accept_yields fun _ => .ite ?_ ?_
  · exact h.expression.bind fun _ => .after (fun _ => .spanFrom) fun _ => .pure
  refine .after (fun _ => isKeywordNext_yields) fun _ => .ite ?_ ?_
  · exact .after (fun _ => .name) fun _ => .after (fun _ => .take) fun _ =>
      h.expression.bind fun _ => .after (fun _ => .spanFrom) fun _ => .ite .fail .pure
  · exact (positionalArgument_alike h).bind fun _ => .ite .pure .fail

theorem arguments_alike : Rule.Alike m (arguments k) (arguments k') :=
  (Alike.addItems isNext_yields fun _ => argument_alike h).bind fun _ =>
    .after (fun _ => .expect) fun _ => .pure

theorem sliceBound_alike : Rule.Alike m (sliceBound k) (sliceBound k') := by
  refine .after (fun _ => .look) fun kind => ?_
  split
  iterate 3 exact .pure
  exact .map h.expression

theorem sliceFrom_alike {start : Pos} {lower : Option Expr} :
    Rule.Alike m (sliceFrom k start lower) (sliceFrom k' start lower) := by
  refine .after (fun _ => .expect) fun _ => (sliceBound_alike h).bind fun _ =>
    .after accept_yields fun _ => .ite ((sliceBound_alike h).bind ?rest) (Alike.pure.bind ?rest)
  exact fun _ => .after (fun _ => .spanFrom) fun _ => .pure

theorem slice_alike : Rule.Alike m (slice k) (slice k') :=
  .after (fun _ => .here) fun _ => .after isNext_yields fun _ => .ite (sliceFrom_alike h)
    ((starredExpression_alike h).bind fun _ => .after isNext_yields fun _ =>
      .ite (sliceFrom_alike h) .pure)

theorem slices_alike : Rule.Alike m (slices k) (slices k') :=
  tupleOr_alike isNext_yields (slice_alike h)

theorem param_alike {annotated : Bool} : Rule.Alike m (param k annotated) (param k' annotated) := by
  refine .after (fun _ => .here) fun _ => .after (fun _ => .name) fun _ => .ite
    ((Alike.when? accept_yields h.expression).bind ?rest) (Alike.pure.bind ?rest)
  exact fun _ => .after (fun _ => .spanFrom) fun _ => .pure

theorem paramEntry_alike {annotated : Bool} {closing : Mark} :
    Rule.Alike m (paramEntry k annotated closing) (paramEntry k' annotated closing) := by
  refine .after accept_yields fun _ => .ite .pure (.after accept_yields fun _ => .ite ?_ ?_)
  · exact (param_alike h).bind fun _ => .pure
  refine .after accept_yields fun _ => .ite ?_ ((param_alike h).bind fun entry => ?_)
  · exact .after isNext_yields fun _ => .ite .pure (.after isNext_yields fun _ => .ite .pure
      ((param_alike h).bind fun _ => .pure))
  · obtain ⟨name, hint, _, span⟩ := entry
    exact (Alike.when? accept_yields h.expression).bind fun _ => .pure

theorem parameters_alike {annotated : Bool} {closing : Mark} :
    Rule.Alike m (parameters k annotated closing) (parameters k' annotated closing) :=
  (Alike.items isNext_yields (paramEntry_alike h)).bind fun _ => .pure

end

end Grammar

end ScoreScript.Script
