import ScoreScript.Proofs.Placing.Expression
import ScoreScript.Proofs.Placing.Rule
import ScoreScript.Proofs.Progress.Bottom
import ScoreScript.Proofs.Script.Number

/-!
The numbers in what rules read. From tokens whose numbers have a place in 63 bits come nodes whose
numbers do, as long as the nodes have forms that declarative scripts consist of (`Node.Modest`).
What a rule reads from such tokens has a property (`Rule.Delivers`) if its parts have; as no rule
gives a token back, this passes from parts to the whole by the combinators that rules are built
from. The rules for expressions keep numbers small: a number comes into an expression only as a
token of its own, and everything else puts expressions together that were read before.
-/

namespace ScoreScript.Script

/-! ### Numbers in nodes -/

/-- A number that is written here has a place in 63 bits. -/
def Node.IsSmall : Node → Prop
  | .expr (.constant (.int n) _) => 0 ≤ n ∧ n < twoTo 63
  | _ => True

/-- So has every number in the node. -/
def Node.Small (n : Node) : Prop :=
  ∀ p, Within n p → p.IsSmall

theorem Node.small_iff {n : Node} : n.Small ↔ n.IsSmall ∧ ∀ q ∈ n.parts, q.Small := by
  constructor
  · exact fun all => ⟨all n (.self n), fun q direct p below => all p (.part direct below)⟩
  · rintro ⟨own, parts⟩ p within
    obtain rfl | ⟨q, direct, below⟩ := within_iff.1 within
    · exact own
    · exact parts q direct p below

theorem Node.Small.part {n q : Node} (small : n.Small) (part : q ∈ n.parts) : q.Small :=
  (Node.small_iff.1 small).2 q part

theorem Node.small_call {callee : Expr} {args : List Expr} {keywords : List KeywordArg}
    {span : Span} (small : (Node.expr (.call callee args keywords span)).Small) :
    (Node.expr callee).Small ∧ (∀ e ∈ args, (Node.expr e).Small) ∧
      ∀ k ∈ keywords, (Node.keyword k).Small := by
  obtain ⟨here, inside⟩ := List.forall_mem_cons.1 (Node.small_iff.1 small).2
  obtain ⟨positional, named⟩ := List.forall_mem_append.1 inside
  exact ⟨here, List.forall_mem_map.1 positional, List.forall_mem_map.1 named⟩

theorem Node.small_withStmt {items : List WithItem} {body : List Stmt} {span : Span}
    (small : (Node.stmt (.withStmt items body span)).Small) :
    (∀ i ∈ items, (Node.item i).Small) ∧ ∀ s ∈ body, (Node.stmt s).Small := by
  obtain ⟨entered, inner⟩ := List.forall_mem_append.1 (Node.small_iff.1 small).2
  exact ⟨List.forall_mem_map.1 entered, List.forall_mem_map.1 inner⟩

/-- The numbers in the node are small if its forms are simple. -/
def Node.Modest (n : Node) : Prop :=
  n.Simple → n.Small

theorem Node.modest_of_parts {n : Node} (own : n.IsSmall) (parts : ∀ q ∈ n.parts, q.Modest) :
    n.Modest := by
  intro simple
  have simpleParts := (Node.simple_iff.1 simple).2
  exact Node.small_iff.2 ⟨own, fun q member => parts q member (simpleParts q member)⟩

theorem Node.modest_of_foreign {n : Node} (foreign : n.isSimple = false) : n.Modest :=
  fun simple => absurd simple (Node.not_simple foreign)

/-- The numbers among the tokens that are left are small. -/
def Stream.Small (s : Stream) : Prop :=
  ∀ t ∈ s.rest, t.kind.Small

theorem Stream.Small.suffix {s t : Stream} (small : s.Small) (behind : t.rest <:+ s.rest) :
    t.Small :=
  fun token member => small token (behind.subset member)

theorem Stream.Small.current {s : Stream} (small : s.Small) : s.current.kind.Small := by
  unfold Stream.current
  cases rest : s.rest with
  | nil => exact trivial
  | cons first later => exact small first (rest ▸ List.mem_cons_self)

namespace Rule

variable {α β : Type} {rule : Rule α} {P : α → Prop} {Q : β → Prop}

/-- What the rule reads from tokens with small numbers has the property. -/
def Delivers (rule : Rule α) (P : α → Prop) : Prop :=
  ∀ n s a t, s.Small → rule n s = .ok (a, t) → P a

/-- The rule is put together from steps that give no token back. -/
abbrev Onward (rule : Rule α) : Prop :=
  Parallel (fun _ rule _ => Forward rule) rule rule

/-- An expression is read whose numbers are small if its forms are simple. -/
abbrev Modest (rule : Rule Expr) : Prop :=
  Delivers rule fun e => (Node.expr e).Modest

namespace Delivers

/-- Both steps that are taken give no token back, and the second goes on from the first. -/
theorem bind {next : α → Rule β} (forward : Onward rule) (h : Delivers rule P)
    (h' : ∀ a, P a → Delivers (next a) Q) : Delivers (rule >>= next) Q := by
  intro n s b u small done
  obtain ⟨⟨a, t⟩, first, rest⟩ := ok_of_bind (show rule n s >>= _ = .ok (b, u) from done)
  have behind := Forward.of_self forward n s a t first
  exact h' a (h n s a t small first) n t b u (small.suffix behind) rest

theorem skip {next : α → Rule β} (forward : Onward rule) (h' : ∀ a, Delivers (next a) Q) :
    Delivers (rule >>= next) Q :=
  bind forward (P := fun _ => True) (fun _ _ _ _ _ _ => trivial) fun a _ => h' a

theorem pure {a : α} (holds : P a) : Delivers (Pure.pure a) P := by
  rintro _ _ _ _ _ ⟨⟩
  exact holds

theorem mono {P' : α → Prop} (h : Delivers rule P) (weaker : ∀ a, P a → P' a) : Delivers rule P' :=
  fun n s a t small done => weaker a (h n s a t small done)

theorem map {f : α → β} (h : Delivers rule P) (holds : ∀ a, P a → Q (f a)) :
    Delivers (f <$> rule) Q := by
  intro n s b u small done
  obtain ⟨⟨a, t⟩, first, ⟨⟩⟩ := ok_of_bind (show rule n s >>= _ = .ok (b, u) from done)
  exact holds a (h n s a u small first)

theorem ite {c : Prop} [Decidable c] {other : Rule α} (h : Delivers rule P)
    (h' : Delivers other P) : Delivers (if c then rule else other) P := by
  split
  · exact h
  · exact h'

theorem fail {cause : GrammarError} {span : Span} : Delivers (fail cause span : Rule α) P :=
  fun _ _ _ _ _ failed => nomatch failed

theorem unexpected {wanted : String} : Delivers (unexpected wanted : Rule α) P :=
  fun _ _ _ _ _ failed => nomatch failed

theorem lift {result : Except Error α} (h : ∀ a, result = .ok a → P a) :
    Delivers (lift result) P := by
  intro n s a t _ done
  obtain ⟨b, found, ⟨⟩⟩ := ok_of_map (show result.map (·, s) = .ok (a, t) from done)
  exact h a found

/-- The number that comes next is small. -/
theorem look {next : TokenKind → Rule β}
    (h : ∀ kind : TokenKind, kind.Small → Delivers (next kind) Q) : Delivers (look >>= next) Q :=
  fun n s b u small done => h s.current.kind small.current n s b u small done

theorem nested (h : Delivers rule P) : Delivers (nested rule) P := by
  intro n s a t small done
  unfold Rule.nested at done
  split at done
  · exact h _ s a t small done
  · cases done

theorem loop {round : α → Rule (Option α)} (forward : ∀ a, Onward (round a))
    (h : ∀ a, P a → Delivers (round a) fun b? => ∀ b ∈ b?, P b) {a : α} (start : P a) :
    Delivers (loop round a) P := by
  intro n s
  induction size : s.size using Nat.strongRecOn generalizing a s with
  | ind m ih =>
    intro c u small done
    rw [Rule.loop] at done
    split at done
    · cases done
    · cases done
      exact start
    · rename_i b after first
      have holds := h a start n s _ _ small first b rfl
      split at done
      · rename_i less
        have behind := Forward.of_self (forward a) _ _ _ _ first
        exact ih after.size (size ▸ less) holds after rfl c u (small.suffix behind) done
      · cases done
        exact holds

/-- Nothing is asked of what is not simple. -/
theorem foreign {rule : Rule Expr} (h : Foreign rule fun e => [.expr e]) : Modest rule := by
  intro n s e t _ done simple
  obtain ⟨q, member, outside⟩ := h n s e t done
  exact absurd (List.mem_singleton.1 member ▸ simple) outside

/-! ### Repetition -/

theorem when? {present : Rule Bool} (forward : Onward present) (h : Delivers rule P) :
    Delivers (when? present rule) fun a? => ∀ a ∈ a?, P a :=
  skip forward fun _ => ite (map h fun _ => forall_mem_some) (pure forall_mem_none)

theorem many {round : Rule (Option α)} (forward : Onward round)
    (h : Delivers round fun a? => ∀ a ∈ a?, P a) :
    Delivers (many round) fun items => ∀ a ∈ items, P a := by
  refine bind (P := fun items => ∀ a ∈ items, P a) (.loop fun _ => .bind forward fun _ => .pure)
    (loop (fun _ => .bind forward fun _ => .pure) (fun items all => ?_) (List.forall_mem_nil _))
    fun items all => pure fun a member => all a (List.mem_reverse.1 member)
  refine bind forward h fun a? holds => pure fun more found => ?_
  obtain ⟨a, here, rfl⟩ := Option.map_eq_some_iff.1 found
  exact List.forall_mem_cons.2 ⟨holds a here, all⟩

theorem separated (forward : Onward rule) (h : Delivers rule P) :
    Delivers (separated rule) fun items => ∀ a ∈ items, P a :=
  bind forward h fun _ first =>
    bind (.many (.when? .accept forward)) (many (.when? .accept forward) (when? .accept h))
      fun _ rest => pure (List.forall_mem_cons.2 ⟨first, rest⟩)

variable {isEnd : Rule Bool} {add : α → Rule α}

theorem addFurther (ends : Onward isEnd) (forward : ∀ a, Onward (add a))
    (h : ∀ a, P a → Delivers (add a) P) {a : α} (start : P a) :
    Delivers (addFurther isEnd add a) P :=
  loop (fun a => .bind .accept fun _ => .ite (.bind ends fun _ => .ite .pure (.map (forward a)))
      .pure)
    (fun a holds => skip .accept fun _ => ite (skip ends fun _ => ite (pure forall_mem_none)
      (map (h a holds) fun _ => forall_mem_some)) (pure forall_mem_none)) start

theorem addItems (ends : Onward isEnd) (forward : ∀ a, Onward (add a))
    (h : ∀ a, P a → Delivers (add a) P) {a : α} (start : P a) : Delivers (addItems isEnd add a) P :=
  skip ends fun _ => ite (pure start)
    (bind (forward a) (h a start) fun _ holds => addFurther ends forward h holds)

theorem furtherItems (ends : Onward isEnd) (forward : Onward rule) (h : Delivers rule P) {first : α}
    (start : P first) : Delivers (furtherItems isEnd rule first) fun items => ∀ a ∈ items, P a := by
  have more (items : List α) : Onward (do return (← rule) :: items) :=
    .bind forward fun _ => .pure
  refine bind (P := fun items => ∀ a ∈ items, P a) (.addFurther ends more)
    (addFurther ends more (fun items all => ?_) (List.forall_mem_singleton.2 start))
    fun items all => pure fun a member => all a (List.mem_reverse.1 member)
  exact bind forward h fun a holds => pure (List.forall_mem_cons.2 ⟨holds, all⟩)

end Delivers

end Rule

/-! ### Expressions -/

/-- The numbers in arguments that have been read are small if the forms of these are simple. -/
def Arguments.Modest (args : Arguments) : Prop :=
  (∀ e ∈ args.positional, (Node.expr e).Modest) ∧ ∀ k ∈ args.keywords, (Node.keyword k).Modest

namespace Grammar

open Rule

/-- The rules that are come back to give no token back and keep numbers small. -/
structure KnotModest (k : Knot) : Prop where
  onward : Knot.Parallel (fun _ rule _ => Forward rule) k k
  expression : Modest k.expression
  operation : ∀ min, Modest (k.operation min)
  factor : Modest k.factor

variable {k : Knot} {start : Pos} {span : Span}

/-! ### Nodes that are put together -/

theorem tuple_modest {items : List Expr} {use : Use} (all : ∀ e ∈ items, (Node.expr e).Modest) :
    (Node.expr (.tuple items use span)).Modest :=
  Node.modest_of_parts trivial (List.forall_mem_map.2 all)

theorem unary_modest {op : UnaryOperator} {operand : Expr} (h : (Node.expr operand).Modest) :
    (Node.expr (.unary op operand span)).Modest :=
  Node.modest_of_parts trivial (List.forall_mem_singleton.2 h)

theorem keyword_modest {name : Option String} {value : Expr} (h : (Node.expr value).Modest) :
    (Node.keyword (.mk name value span)).Modest :=
  Node.modest_of_parts trivial (List.forall_mem_singleton.2 h)

theorem call_modest {callee : Expr} {args : List Expr} {keywords : List KeywordArg}
    (h : (Node.expr callee).Modest) (all : ∀ e ∈ args, (Node.expr e).Modest)
    (named : ∀ k ∈ keywords, (Node.keyword k).Modest) :
    (Node.expr (.call callee args keywords span)).Modest :=
  Node.modest_of_parts trivial (List.forall_mem_cons.2 ⟨h,
    List.forall_mem_append.2 ⟨List.forall_mem_map.2 all, List.forall_mem_map.2 named⟩⟩)

/-- String literals are a constant that is no number, or else not simple. -/
theorem toExpr_modest (j : Joining) : (Node.expr (j.toExpr span)).Modest := by
  unfold Joining.toExpr
  split
  · exact Node.modest_of_parts trivial (List.forall_mem_nil _)
  · split
    · exact Node.modest_of_foreign rfl
    · exact Node.modest_of_parts trivial (List.forall_mem_nil _)

theorem strings_modest : Modest (strings k) := by
  intro n s e u _ done
  unfold strings at done
  obtain ⟨⟨j, v⟩, -, ⟨⟩⟩ := ok_of_bind (show loop _ _ n s >>= _ = .ok (e, u) from done)
  exact toExpr_modest j

/-- The token of a number is its constant. -/
theorem constant_modest {kind : TokenKind} {value : Constant} (small : kind.Small)
    (found : constantOf? kind = some value) : (Node.expr (.constant value span)).Modest := by
  refine Node.modest_of_parts ?_ (List.forall_mem_nil _)
  unfold constantOf? at found
  split at found <;> cases found
  · exact ⟨Int.natCast_nonneg _, Int.ofNat_lt.2 small⟩
  iterate 5 trivial

/-! ### Groups -/

section

variable (h : KnotModest k)
include h

theorem starredOperand_modest : Modest (starredOperand k) :=
  .skip .here fun _ => .skip .accept fun _ =>
    .ite (.foreign (.bind fun _ => .bind fun _ => .expr rfl)) (h.operation _)

theorem starredExpression_modest : Modest (starredExpression k) :=
  .skip .isNext fun _ => .ite (starredOperand_modest h) h.expression

omit h in
theorem tupleOr_modest {isEnd : Rule Bool} {item : Rule Expr} (ends : Onward isEnd)
    (onward : Onward item) (h : Modest item) : Modest (tupleOr isEnd item) :=
  .skip .here fun _ => .bind onward h fun _ first => .skip .isNext fun _ =>
    .ite (.bind (.furtherItems ends onward) (.furtherItems ends onward h first) fun _ all =>
      .skip .spanFrom fun _ => .pure (tuple_modest all)) (.pure first)

theorem expressions_modest : Modest (expressions k) :=
  tupleOr_modest isExpressionEnd_parallel (starredExpression_parallel h.onward)
    (starredExpression_modest h)

theorem namedExpression_modest : Modest (namedExpression k) := by
  refine .skip .here fun _ => .bind h.onward.expression h.expression fun target modest =>
    .skip .isNext fun _ => .ite ?_ (.pure modest)
  split
  · exact .foreign (.bind fun _ => .bind fun _ => .bind fun _ => .expr rfl)
  · exact .fail

theorem parenthesized_modest : Modest (parenthesized k start) := by
  unfold parenthesized
  refine .skip .accept fun _ => .ite ?_ (.skip .isNext fun _ => .ite ?_ ?_)
  · exact .skip .spanFrom fun _ => .pure (tuple_modest (List.forall_mem_nil _))
  · exact .bind (yieldExpression_parallel h.onward) (.foreign yieldExpression_foreign)
      fun _ modest => .skip .expect fun _ => .pure modest
  · refine .skip .isNext fun _ => .ite
      (.bind (starredOperand_parallel h.onward) (starredOperand_modest h) ?rest)
      (.bind (namedExpression_parallel h.onward) (namedExpression_modest h) ?rest)
    intro first modest
    refine .skip .isNext fun _ => .ite ?_ (.skip .accept fun _ => .ite (.pure modest) ?_)
    · exact .foreign (.bind fun _ => .bind fun _ => .expr rfl)
    · have starred := starredExpression_parallel h.onward
      refine .bind (P := fun items => ∀ e ∈ items, (Node.expr e).Modest)
        (displayItems_parallel h.onward) ?_ fun items all =>
          .skip .spanFrom fun _ => .pure (tuple_modest all)
      exact .bind (.furtherItems .isNext starred)
        (.furtherItems .isNext starred (starredExpression_modest h) modest) fun _ all =>
          .skip .expect fun _ => .pure all

/-! ### Arguments -/

theorem positionalArgument_modest : Modest (positionalArgument k start) :=
  .bind (namedExpression_parallel h.onward) (namedExpression_modest h) fun _ modest =>
    .skip .isNext fun _ => .ite (.foreign (.bind fun _ => .bind fun _ => .expr rfl)) (.pure modest)

theorem argument_modest {read : Arguments} (modest : read.Modest) :
    Delivers (argument k read) Arguments.Modest := by
  have onward := h.onward.expression
  have named {start : Pos} {name : Option String} {value : Expr}
      (known : (Node.expr value).Modest) :
      Delivers (do return read.addKeyword (.mk name value (← spanFrom start))) Arguments.Modest :=
    .skip .spanFrom fun _ =>
      .pure ⟨modest.1, List.forall_mem_cons.2 ⟨keyword_modest known, modest.2⟩⟩
  refine .skip .here fun _ => .skip .accept fun _ => .ite ?_ (.skip .accept fun _ => .ite ?_ ?_)
  · exact .bind onward h.expression fun _ => named
  · exact .skip onward fun _ => .skip .spanFrom fun _ =>
      .pure ⟨List.forall_mem_cons.2 ⟨Node.modest_of_foreign rfl, modest.1⟩, modest.2⟩
  refine .skip isKeywordNext_parallel fun _ => .ite ?_ ?_
  · refine .skip .name fun name => .skip .take fun _ => .bind onward h.expression fun _ known => ?_
    refine .skip .spanFrom fun _ => .ite .fail (.pure ?_)
    exact ⟨modest.1, List.forall_mem_cons.2 ⟨keyword_modest known, modest.2⟩⟩
  · refine .bind (positionalArgument_parallel h.onward) (positionalArgument_modest h)
      fun _ known => .ite (.pure ?_) .fail
    exact ⟨List.forall_mem_cons.2 ⟨known, modest.1⟩, modest.2⟩

theorem arguments_modest : Delivers (arguments k) fun args =>
    (∀ e ∈ args.1, (Node.expr e).Modest) ∧ ∀ k ∈ args.2, (Node.keyword k).Modest := by
  have empty : Arguments.empty.Modest := ⟨List.forall_mem_nil _, List.forall_mem_nil _⟩
  refine .bind (.addItems .isNext fun _ => argument_parallel h.onward)
    (.addItems .isNext (fun _ => argument_parallel h.onward) (fun _ => argument_modest h) empty)
    fun _ modest => .skip .expect fun _ => .pure ⟨?_, ?_⟩
  · exact fun e member => modest.1 e (List.mem_reverse.1 member)
  · exact fun k member => modest.2 k (List.mem_reverse.1 member)

/-! ### Operands -/

theorem postfixed_modest {owner : Expr} (modest : (Node.expr owner).Modest) :
    Delivers (postfixed k start owner) fun e? => ∀ e ∈ e?, (Node.expr e).Modest := by
  have instead {e : Expr} (known : (Node.expr e).Modest) :
      Delivers (Pure.pure (some e)) fun e? => ∀ e ∈ e?, (Node.expr e).Modest :=
    .pure (forall_mem_some known)
  unfold postfixed
  refine .skip .accept fun _ => .ite ?_ (.skip .accept fun _ => .ite ?_ (.skip .accept fun _ =>
    .ite ?_ (.pure forall_mem_none)))
  · exact .bind (arguments_parallel h.onward) (arguments_modest h) fun _ all =>
      .skip .spanFrom fun _ => instead (call_modest modest all.1 all.2)
  · exact .skip (slices_parallel h.onward) fun _ => .skip .expect fun _ => .skip .spanFrom fun _ =>
      instead (Node.modest_of_foreign rfl)
  · exact .skip .name fun _ => .skip .spanFrom fun _ => instead (Node.modest_of_foreign rfl)

theorem atom_modest : Modest (atom k) := by
  unfold atom
  refine .skip .here fun start => .look fun kind small => ?_
  split
  · exact .skip .take fun _ => .pure (Node.modest_of_parts trivial (List.forall_mem_nil _))
  · exact strings_modest
  · exact .skip .take fun _ => .nested (parenthesized_modest h)
  · exact .skip .take fun _ => .nested (.foreign listDisplay_foreign)
  · exact .skip .take fun _ => .nested (.foreign braceDisplay_foreign)
  · split
    · rename_i found
      exact .skip .take fun _ => .pure (constant_modest small found)
    · exact .unexpected

theorem primary_modest : Modest (primary k) :=
  .skip .here fun _ => .bind (atom_parallel h.onward) (atom_modest h) fun _ modest =>
    .loop (fun _ => postfixed_parallel h.onward) (fun _ => postfixed_modest h) modest

theorem power_modest : Modest (power k) := by
  have onward := primary_parallel h.onward
  unfold power
  refine .skip .here fun start => .skip .accept fun awaits => .ite
    (.skip onward fun value => .skip .spanFrom fun span =>
      .bind (P := fun e => (Node.expr e).Modest) .pure (.pure (Node.modest_of_foreign rfl)) ?rest)
    (.bind onward (primary_modest h) ?rest)
  exact fun base modest => .skip .accept fun raised => .ite
    (.foreign (.bind fun _ => .bind fun _ => .expr rfl)) (.pure modest)

theorem factor_modest : Modest (factor k) := by
  refine .skip .here fun _ => .look fun kind _ => ?_
  split
  · exact .skip .take fun _ => .bind (.nested h.onward.factor) (.nested h.factor) fun _ modest =>
      .skip .spanFrom fun _ => .pure (unary_modest modest)
  · exact power_modest h

theorem firstOperand_modest {min : Level} : Modest (firstOperand k min) := by
  unfold firstOperand
  refine .skip .here fun start => .ite (.skip .accept ?rest) (.skip .pure ?rest)
  exact fun negated => .ite (.foreign (.bind fun _ => .bind fun _ => .expr rfl)) (factor_modest h)

/-! ### Whole expressions -/

/-- Operations with two sides are not simple. -/
theorem extend_modest {min : Level} {left : Expr} :
    Delivers (extend k min start left) fun e? => ∀ e ∈ e?, (Node.expr e).Modest := by
  have operated {e : Span → Expr} (foreign : ∀ span, (Node.expr (e span)).isSimple = false) :
      Delivers (do return some (e (← spanFrom start))) fun e? => ∀ e ∈ e?, (Node.expr e).Modest :=
    .skip .spanFrom fun span => .pure (forall_mem_some (Node.modest_of_foreign (foreign span)))
  refine .look fun _ _ => .skip .lookAhead fun _ => ?_
  split
  · exact .pure forall_mem_none
  · refine .ite (.pure forall_mem_none) ?_
    split
    · exact .skip (.many (.when? .accept (h.onward.operation _))) fun _ => operated fun _ => rfl
    · exact .skip (.many (comparison_parallel h.onward)) fun _ => operated fun _ => rfl
    · exact .skip .take fun _ => .skip (h.onward.operation _) fun _ => operated fun _ => rfl

theorem operation_modest {min : Level} : Modest (operation k min) :=
  .skip .here fun _ => .bind (firstOperand_parallel h.onward) (firstOperand_modest h)
    fun _ modest => .loop (fun _ => extend_parallel h.onward) (fun _ _ => extend_modest h) modest

theorem expression_modest : Modest (expression k) := by
  have lambda : Foreign (lambda k) fun e => [.expr e] :=
    .bind fun _ => .bind fun _ => .bind fun _ => .bind fun _ => .bind fun _ => .bind fun _ =>
      .expr rfl
  refine .nested (.skip .isNext fun _ => .ite (.foreign lambda) (.skip .here fun start => ?_))
  refine .bind (operation_parallel h.onward) (operation_modest h) fun body modest =>
    .skip .accept fun _ => .ite ?_ (.pure modest)
  exact .foreign (.bind fun _ => .bind fun _ => .bind fun _ => .bind fun _ => .expr rfl)

end

/-- Each round of the circle of rules keeps numbers small. -/
theorem within_modest {hole : Nat → String → Except Error Expr} (size : Nat) : KnotModest
    ⟨expressionWithin hole size, operationWithin hole size, factorWithin hole size, hole⟩ := by
  have onward (size : Nat) : Knot.Parallel (fun _ rule _ => Forward rule)
      ⟨expressionWithin hole size, operationWithin hole size, factorWithin hole size, hole⟩
      ⟨expressionWithin hole size, operationWithin hole size, factorWithin hole size, hole⟩ :=
    rounds_parallel (fun k _ _ _ source span => holeValue_forward k source span) size
  induction size with
  | zero =>
    refine ⟨onward 0, ?_, fun min => ?_, ?_⟩
    · simp only [expressionWithin]
      exact .unexpected
    · simp only [operationWithin]
      exact .unexpected
    · simp only [factorWithin]
      exact .unexpected
  | succ size ih =>
    refine ⟨onward (size + 1), ?_, fun min => ?_, ?_⟩
    · simp only [expressionWithin]
      exact expression_modest ih
    · simp only [operationWithin]
      exact operation_modest ih
    · simp only [factorWithin]
      exact factor_modest ih

end Grammar

end ScoreScript.Script
