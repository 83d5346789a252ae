import ScoreScript.Proofs.Holes.Rule

/-!
The rules for parts of expressions and statements cover the tokens they use: what stands in
brackets, arguments, indices, parameters. Each reads its parts in order and puts them into the
node it returns; the only exception are parameters, where one can take the place of another.
-/

namespace ScoreScript.Script

def Param.hint : Param → Option Expr
  | .mk _ hint _ _ => hint

/-- The nodes of arguments that have been read. -/
def Arguments.nodes (args : Arguments) : List Node :=
  args.positional.map .expr ++ args.keywords.map .keyword

namespace Grammar

open Rule

/-- The rules that are come back to cover the tokens they use. -/
structure KnotCovers (whole : Option Knot) (k : Knot) : Prop where
  expression : Covers k.hole whole [] k.expression fun e => [.expr e]
  operation : ∀ min, Covers k.hole whole [] (k.operation min) fun e => [.expr e]
  factor : Covers k.hole whole [] k.factor fun e => [.expr e]

variable {hole : Nat → String → Except Error Expr} {whole : Option Knot} {k : Knot}
  {owed : List Node}

theorem isExpressionEnd_covers : Covers hole whole [] isExpressionEnd fun _ => [] := by
  unfold isExpressionEnd
  refine .look fun s => ?_
  split <;> exact Covers.leaf s

/-- Where a name and an equals sign are found, they are what comes next. -/
theorem isKeywordNext_ensures {n : Nesting} {s : Stream} :
    Ensures n isKeywordNext s fun found t => t = s ∧
      (found = true → (∃ id, s.current.kind = .name id) ∧ s.second.kind = .op .assign) := by
  unfold isKeywordNext
  refine Ensures.look.bind ?_
  rintro _ _ - ⟨rfl, rfl⟩
  refine Ensures.lookAhead.bind ?_
  rintro _ _ - ⟨rfl, rfl⟩
  split
  · rename_i id first second
    exact .pure ⟨rfl, fun _ => ⟨⟨id, first⟩, second⟩⟩
  · exact .pure ⟨rfl, nofun⟩

theorem ifKeyword {β : Type} {nodes : β → List Node} {next : Bool → Rule β}
    (found : ∀ s id, s.current.kind = .name id → s.second.kind = .op .assign →
      CoversAt hole whole owed (next true) s nodes)
    (absent : Covers hole whole owed (next false) nodes) :
    Covers hole whole owed (isKeywordNext >>= next) nodes := by
  intro s n b u done
  obtain ⟨⟨named, t⟩, first, second⟩ :=
    ok_of_bind (show isKeywordNext n s >>= _ = .ok (b, u) from done)
  obtain ⟨-, rfl, known⟩ := isKeywordNext_ensures named t first
  cases named with
  | true =>
    obtain ⟨⟨id, here⟩, behind⟩ := known rfl
    exact found t id here behind n b u second
  | false => exact absent t n b u second

section

variable (h : KnotCovers whole k)
include h

/-! ### Shared rules -/

omit h in
theorem tupleOr_covers {isEnd : Rule Bool} {item : Rule Expr}
    (e : Covers hole whole [] isEnd fun _ => [])
    (h : Covers hole whole [] item fun e => [.expr e]) :
    Covers hole whole [] (tupleOr isEnd item) fun e => [.expr e] := by
  unfold tupleOr
  refine .skip .here fun start => h.bind fun first => .skip .isNext fun more => .ite ?_ ?_
  · refine (Covers.furtherItems e h).seq fun items => .skip .spanFrom fun span => .node ?_
    simp [Node.parts, Expr.parts, ← List.map_eq_flatMap]
  · exact .pure fun _ => id

omit h in
theorem toTarget_covers {use : Use} {e : Expr} :
    Covers hole whole [.expr e] (lift (e.toTarget use)) fun target => [.expr target] := by
  refine .lift fun target found q owed x fills => ⟨_, List.mem_singleton_self _, ?_⟩
  obtain rfl := List.mem_singleton.1 owed
  exact e.fills_toTarget found fills

theorem starredOperand_covers :
    Covers k.hole whole [] (starredOperand k) fun e => [.expr e] := by
  unfold starredOperand
  refine .skip .here fun start => .skip .accept fun star => .ite ?_ (h.operation _)
  exact (h.operation _).bind fun value => .skip .spanFrom fun span =>
    .node (by simp [Node.parts, Expr.parts])

theorem starredExpression_covers :
    Covers k.hole whole [] (starredExpression k) fun e => [.expr e] :=
  .skip .isNext fun _ => .ite (starredOperand_covers h) h.expression

theorem expressions_covers : Covers k.hole whole [] (expressions k) fun e => [.expr e] :=
  tupleOr_covers isExpressionEnd_covers (starredExpression_covers h)

theorem namedExpression_covers :
    Covers k.hole whole [] (namedExpression k) fun e => [.expr e] := by
  unfold namedExpression
  refine .skip .here fun start => h.expression.bind fun target => .ifNext ?_ (.pure fun _ => id)
  intro s walrus
  rw [if_pos rfl]
  split
  · rename_i id use span
    refine .forget (.takenMark walrus fun _ => h.expression.bind fun value => ?_) ?_
    · exact .skip .spanFrom fun span => .node (by simp [Node.parts, Expr.parts])
    · exact List.forall_mem_singleton.2 fun _ => Node.not_fills_name
  · exact Covers.fail s

theorem loopTarget_covers : Covers k.hole whole [] (loopTarget k) fun e => [.expr e] :=
  (tupleOr_covers .isNext (starredOperand_covers h)).seq fun _ => toTarget_covers

theorem comprehension_covers :
    Covers k.hole whole [] (comprehension k) fun g => [.comprehension g] := by
  unfold comprehension
  refine .skip .here fun start => .skip .expect fun _ => (loopTarget_covers h).bind fun target => ?_
  refine .skip .expect fun _ => (h.operation _).bind fun source => ?_
  refine (Covers.many (.when? .accept (h.operation _))).bind fun conditions => ?_
  exact .skip .spanFrom fun span => .node (by simp [Node.parts, ← List.map_eq_flatMap])

theorem comprehensions_covers : Covers k.hole whole [] (comprehensions k) fun generators =>
    generators.map .comprehension :=
  Covers.mono (.many (.when? .isNext (comprehension_covers h))) (by simp [← List.map_eq_flatMap])

theorem yieldExpression_covers :
    Covers k.hole whole [] (yieldExpression k) fun e => [.expr e] := by
  unfold yieldExpression
  refine .skip .here fun start => .skip .expect fun _ => .skip .accept fun isFrom => .ite ?_ ?_
  · exact h.expression.bind fun value => .skip .spanFrom fun span =>
      .node (by simp [Node.parts, Expr.parts])
  · have present : Covers k.hole whole [] (return !(← isExpressionEnd)) fun _ => [] :=
      isExpressionEnd_covers.skip fun _ => .leaf
    refine (Covers.when? present (expressions_covers h)).bind fun value => ?_
    exact .skip .spanFrom fun span =>
      .node (by simp [Node.parts, Expr.parts, ← List.map_eq_flatMap])

/-! ### Brackets -/

theorem displayItems_covers {first : Expr} {closing : Mark} :
    Covers k.hole whole [.expr first] (displayItems k first closing) fun items =>
      items.map .expr := by
  unfold displayItems
  refine (Covers.furtherItems .isNext (starredExpression_covers h)).seq fun items => ?_
  exact .skip .expect fun _ => .pure (by simp [← List.map_eq_flatMap])

theorem displayClauses_covers {closing : Mark} :
    Covers k.hole whole [] (displayClauses k closing) fun generators =>
      generators.map .comprehension :=
  (comprehensions_covers h).bind fun _ => .skip .expect fun _ => .pure fun _ => id

theorem parenthesized_covers {start : Pos} :
    Covers k.hole whole [] (parenthesized k start) fun e => [.expr e] := by
  unfold parenthesized
  refine .skip .accept fun empty => .ite (.skip .spanFrom fun _ => .leaf) ?_
  refine .skip .isNext fun isYield => .ite ?_ ?_
  · exact (yieldExpression_covers h).bind fun value => .skip .expect fun _ => .pure fun _ => id
  · have starred := starredOperand_covers h
    have named := namedExpression_covers h
    refine .skip .isNext fun star => .ite (starred.bind ?rest) (named.bind ?rest)
    intro first
    refine .skip .isNext fun isFor => .ite ?_ (.skip .accept fun alone => .ite ?_ ?_)
    · exact (displayClauses_covers h).bind fun generators => .skip .spanFrom fun span =>
        .node (by simp [Node.parts, Expr.parts])
    · exact .pure fun _ => id
    · exact (displayItems_covers h).seq fun items => .skip .spanFrom fun span =>
        .node (by simp [Node.parts, Expr.parts])

theorem listDisplay_covers {start : Pos} :
    Covers k.hole whole [] (listDisplay k start) fun e => [.expr e] := by
  unfold listDisplay
  refine .skip .accept fun empty => .ite (.skip .spanFrom fun _ => .leaf) ?_
  refine (starredExpression_covers h).bind fun first => .skip .isNext fun isFor => .ite ?_ ?_
  · exact (displayClauses_covers h).bind fun generators => .skip .spanFrom fun span =>
      .node (by simp [Node.parts, Expr.parts])
  · exact (displayItems_covers h).seq fun items => .skip .spanFrom fun span =>
      .node (by simp [Node.parts, Expr.parts])

theorem dictEntry_covers :
    Covers k.hole whole [] (dictEntry k) fun entry => entry.exprs.map .expr := by
  unfold dictEntry
  refine .skip .accept fun unpacks => .ite ?_ ?_
  · exact (h.operation _).bind fun mapping => .pure (by simp [DictEntry.exprs])
  · exact h.expression.bind fun key => .skip .expect fun _ => h.expression.bind fun value =>
      .pure (by simp [DictEntry.exprs])

theorem dictFrom_covers {start : Pos} {first : DictEntry} :
    Covers k.hole whole (first.exprs.map .expr) (dictFrom k start first) fun e => [.expr e] := by
  unfold dictFrom
  refine (Covers.furtherItems .isNext (dictEntry_covers h)).seq fun entries => ?_
  refine .skip .expect fun _ => .skip .spanFrom fun span => .node ?_
  simp [Node.parts, Expr.parts, List.map_flatMap]

theorem braceDisplay_covers {start : Pos} :
    Covers k.hole whole [] (braceDisplay k start) fun e => [.expr e] := by
  unfold braceDisplay
  refine .skip .accept fun empty => .ite (.skip .spanFrom fun _ => .leaf) ?_
  refine .skip .accept fun unpacks => .ite ?_ ?_
  · exact (h.operation _).bind fun mapping => dictFrom_covers h
  refine (starredExpression_covers h).bind fun first => .skip .accept fun isDict => .ite ?_ ?_
  · refine h.expression.bind fun value => .skip .isNext fun isFor => .ite ?_ ?_
    · exact (displayClauses_covers h).bind fun generators => .skip .spanFrom fun span =>
        .node (by simp [Node.parts, Expr.parts])
    · exact dictFrom_covers h
  refine .skip .isNext fun isFor => .ite ?_ ?_
  · exact (displayClauses_covers h).bind fun generators => .skip .spanFrom fun span =>
      .node (by simp [Node.parts, Expr.parts])
  · exact (displayItems_covers h).seq fun items => .skip .spanFrom fun span =>
      .node (by simp [Node.parts, Expr.parts])

/-! ### Arguments, indices and parameters -/

theorem positionalArgument_covers {start : Pos} :
    Covers k.hole whole [] (positionalArgument k start) fun e => [.expr e] := by
  unfold positionalArgument
  refine (namedExpression_covers h).bind fun value => .skip .isNext fun isFor => .ite ?_ ?_
  · exact (comprehensions_covers h).bind fun generators => .skip .spanFrom fun span =>
      .node (by simp [Node.parts, Expr.parts])
  · exact .pure fun _ => id

omit h in
theorem addKeyword_covers {read : Arguments} {name : Option String} {value : Expr} {span : Span} :
    Covers hole whole (read.nodes ++ [.expr value])
      (Pure.pure (read.addKeyword (.mk name value span))) Arguments.nodes := by
  refine .placed (List.forall_mem_append.2 ⟨fun q before => ⟨q, ?_, .inl rfl⟩,
    List.forall_mem_singleton.2 ⟨.keyword (.mk name value span), ?_, .inr List.mem_cons_self⟩⟩)
  · rw [Arguments.nodes, List.mem_append] at before ⊢
    exact before.imp_right (List.mem_cons_of_mem _)
  · exact List.mem_append_right _ List.mem_cons_self

omit h in
theorem addPositional_covers {read : Arguments} {q : Node} {value : Expr}
    (here : q = .expr value ∨ q ∈ value.parts) :
    Covers hole whole (read.nodes ++ [q]) (Pure.pure (read.addPositional value))
      Arguments.nodes := by
  refine .placed (List.forall_mem_append.2 ⟨fun q before => ⟨q, ?_, .inl rfl⟩,
    List.forall_mem_singleton.2 ⟨.expr value, ?_, here⟩⟩)
  · rw [Arguments.nodes, List.mem_append] at before ⊢
    exact before.imp_left (List.mem_cons_of_mem _)
  · exact List.mem_append_left _ List.mem_cons_self

theorem argument_covers {read : Arguments} :
    Covers k.hole whole read.nodes (argument k read) Arguments.nodes := by
  unfold argument
  refine .skip .here fun start => .skip .accept fun mapping => .ite ?_ ?_
  · exact h.expression.bind fun value => .skip .spanFrom fun span => addKeyword_covers
  refine .skip .accept fun star => .ite ?_ (ifKeyword ?_ ?_)
  · exact h.expression.bind fun value => .skip .spanFrom fun span =>
      addPositional_covers (.inr List.mem_cons_self)
  · intro s id first second
    rw [if_pos rfl]
    have assign : s.advance.current.kind = .op .assign := by
      rw [s.current_advance (by rw [first]; rfl), second]
    refine .named first (.taken (by rw [assign]; rfl) (fun _ => by rw [assign]; rfl) fun _ => ?_)
    exact h.expression.bind fun value => .skip .spanFrom fun span => .ite .fail addKeyword_covers
  · rw [if_neg Bool.false_ne_true]
    exact (positionalArgument_covers h).bind fun value => .ite (addPositional_covers (.inl rfl)) .fail

theorem arguments_covers : Covers k.hole whole [] (arguments k) fun args =>
    args.1.map .expr ++ args.2.map .keyword := by
  unfold arguments
  refine (Covers.addItems .isNext (fun read => argument_covers h) rfl).seq fun args => ?_
  exact .skip .expect fun _ => .pure (by simp [Arguments.nodes])

theorem sliceBound_covers : Covers k.hole whole [] (sliceBound k) fun bound? =>
    bound?.toList.map .expr := by
  unfold sliceBound
  refine .look fun s => ?_
  split
  iterate 3 exact Covers.leaf s
  exact h.expression.map s

theorem sliceFrom_covers {start : Pos} {lower : Option Expr} :
    Covers k.hole whole (lower.toList.map .expr) (sliceFrom k start lower) fun e => [.expr e] := by
  have bound := sliceBound_covers h
  unfold sliceFrom
  refine .skip .expect fun _ => bound.bind fun upper => .skip .accept fun more => ?_
  refine .ite (bound.bind ?rest) (.bind .leaf ?rest)
  exact fun step => .skip .spanFrom fun span => .node (by simp [Node.parts, Expr.parts])

theorem slice_covers : Covers k.hole whole [] (slice k) fun e => [.expr e] := by
  unfold slice
  refine .skip .here fun start => .skip .isNext fun colon => .ite (sliceFrom_covers h) ?_
  refine (starredExpression_covers h).bind fun index => .skip .isNext fun colon => .ite ?_ ?_
  · exact sliceFrom_covers h
  · exact .pure fun _ => id

theorem slices_covers : Covers k.hole whole [] (slices k) fun e => [.expr e] :=
  tupleOr_covers .isNext (slice_covers h)

theorem param_covers (annotated : Bool) :
    Covers k.hole whole [] (param k annotated) fun p => p.hint.toList.map .expr := by
  unfold param
  refine .skip .here fun start => .skip .name fun name => ?_
  refine .ite ((Covers.when? .accept h.expression).bind ?rest) (.bind .leaf ?rest)
  exact fun hint => .skip .spanFrom fun span => .pure (by simp [Param.hint, ← List.map_eq_flatMap])

omit h in
/-- A parameter without an annotation is but a name. -/
theorem param_covers_name : Covers k.hole whole [] (param k false) fun _ => [] := by
  unfold param
  refine .skip .here fun start => .skip .name fun name => ?_
  rw [if_neg Bool.false_ne_true]
  exact .skip .leaf fun hint => .skip .spanFrom fun span => .leaf

/-- What a parameter with a star holds is its annotation. -/
theorem starred_covers (annotated : Bool) :
    Covers k.hole whole [] (param k annotated) fun p => if annotated then [.param p] else [] := by
  cases annotated with
  | true =>
    refine (param_covers h true).inside fun p q hint => ?_
    cases p
    exact ⟨_, List.mem_singleton_self _, .inr (by
      simp only [Node.parts, List.map_append]
      exact List.mem_append_left _ hint)⟩
  | false => exact param_covers_name

theorem paramEntry_covers {annotated : Bool} {closing : Mark} :
    Covers k.hole whole [] (paramEntry k annotated closing) fun entry =>
      if annotated || !entry.isStarred then (entryParams entry).map .param else [] := by
  have starred := starred_covers h annotated
  unfold paramEntry
  refine .skip .accept fun slash => .ite .leaf (.skip .accept fun names => .ite ?_ ?_)
  · exact starred.bind fun p => .pure (by cases annotated <;> simp [entryParams])
  refine .skip .accept fun star => .ite ?_ ?_
  · refine .skip .isNext fun bare => .ite .leaf (.skip .isNext fun last => .ite .leaf ?_)
    exact starred.bind fun p => .pure (by cases annotated <;> simp [entryParams])
  · refine (param_covers h annotated).bind fun p => ?_
    obtain ⟨name, hint, nothing, span⟩ := p
    refine (Covers.when? .accept h.expression).bind fun default => .placed fun q owing => ?_
    refine ⟨.param (.mk name hint default span), ?_, .inr ?_⟩
    · cases annotated <;> exact List.mem_singleton_self _
    · simpa [Node.parts, Param.hint, ← List.map_eq_flatMap] using owing

/-- Parameters are sorted in, except for those that are replaced. -/
theorem sorted_covers {annotated : Bool} {closing : Mark} {n : Nesting} {s t : Stream}
    {entries : List ParamEntry}
    (read : items (isNext closing) (paramEntry k annotated closing) n s = .ok (entries, t)) :
    ∃ used, s.rest = used ++ t.rest ∧ Usable whole used ∧ ∀ x ∈ holesIn used,
      (Node.parameters (ParamEntry.sort false entries)).Fills k.hole x ∨
      (annotated = true ∧ ∃ p ∈ replacedParams entries, (Node.param p).Fills k.hole x) ∨
      ∃ k ∈ whole, Lost k used x := by
  obtain ⟨used, split, usable, paid⟩ :=
    Covers.items .isNext (paramEntry_covers h) s n entries t read
  refine ⟨used, split, usable, fun x here => ?_⟩
  rcases paid x (.inl here) with ⟨q, inside, fills⟩ | lost
  · obtain ⟨entry, listed, inside⟩ := List.mem_flatMap.1 inside
    split at inside
    · rename_i held
      obtain ⟨p, part, rfl⟩ := List.mem_map.1 inside
      rcases mem_sort_or_replaced false listed part with sorted | ⟨starred, replaced⟩
      · exact .inl (fills.of_part sorted)
      · rw [starred, Bool.not_true, Bool.or_false] at held
        exact .inr (.inl ⟨held, p, replaced, fills⟩)
    · cases inside
  · exact .inr (.inr lost)

/-- A function without a name has parameters without annotations, so that nothing is lost where
one is replaced. -/
theorem parameters_covers {closing : Mark} :
    Covers k.hole whole [] (parameters k false closing) fun ps => [.parameters ps] := by
  intro s n ps t done
  obtain ⟨⟨entries, t⟩, read, ⟨⟩⟩ :=
    ok_of_bind (show items (isNext closing) (paramEntry k false closing) n s >>= _ =
      .ok (ps, t) from done)
  obtain ⟨used, split, usable, held⟩ := sorted_covers h read
  refine ⟨used, split, usable, fun x here => ?_⟩
  rcases here with here | ⟨q, none, -⟩
  · rcases held x here with fills | ⟨⟨⟩, -⟩ | lost
    · exact .inl ⟨_, List.mem_singleton_self _, fills⟩
    · exact .inr lost
  · cases none

end

end Grammar

end ScoreScript.Script
