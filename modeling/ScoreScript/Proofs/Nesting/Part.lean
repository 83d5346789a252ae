import ScoreScript.Proofs.Nesting.Chain
import ScoreScript.Proofs.Nesting.Rule
import ScoreScript.Script.Grammar.Expression

/-!
How deep expressions nest that were read with so much room. Each level of the limit makes room for
20 more nodes in a chain: what a rule reads one level deeper is covered by that level, and between
two levels a chain can only go down the operators by their precedence.
-/

namespace ScoreScript.Script.Grammar

open Rule

/-- No operator of the level or a tighter one comes next. -/
def Ended (min : Level) (s : Stream) : Prop :=
  ∀ level joint, Joint.ofKinds? s.current.kind s.second.kind = some (level, joint) →
    level.rank < min.rank

/-- How deep an operation may be, apart from the levels that are left. -/
def height (min : Level) : Nat :=
  15 - min.rank

/-- The rules that are come back to read what is as shallow as the room demands. -/
structure Bounded (k : Knot) : Prop where
  expression : ∀ n, 0 < n.limit → Yields n k.expression (Expr.Shallow (20 * n.room - 4))
  operation : ∀ n, 0 < n.limit → ∀ min s, Ensures n (k.operation min) s fun e t =>
    e.Shallow (20 * n.room + height min) ∧ Ended min t
  factor : ∀ n, 0 < n.limit → Yields n k.factor (Expr.Shallow (20 * n.room + 5))
  hole : ∀ room source e, 0 < room → k.hole room source = .ok e → e.Shallow (20 * room - 2)

/-- A leaf of the tree. -/
theorem shallow_leaf {b : Nat} {e : Expr} (tight : e.loose = []) (leaf : e.held = []) :
    e.Shallow (b + 1) :=
  Expr.shallow_of_held tight (by rw [leaf]; exact List.forall_mem_nil _)

/-- A star counts once: what it holds is a loose part. -/
theorem starred_shallow {b : Nat} {value : Expr} {use : Use} {span : Span}
    (h : value.Shallow (b + 20)) : (Expr.starred value use span).Shallow (b + 1) := by
  refine Expr.shallow_iff.2 ⟨List.forall_mem_nil _, fun q direct => ?_⟩
  obtain rfl := List.mem_singleton.1 direct
  exact h

/-- The clauses of a generator are loose. -/
theorem generator_shallow {b : Nat} {item : Expr} {generators : List Comprehension} {span : Span}
    (h : item.Shallow b) (all : ∀ g ∈ generators, (Node.comprehension g).Shallow (b + 20)) :
    (Expr.generator item generators span).Shallow (b + 1) :=
  Expr.shallow_iff.2 ⟨List.forall_mem_singleton.2 h, List.forall_mem_map.2 all⟩

/-! ### Shared rules -/

theorem tupleOr_yields {n : Nesting} {isEnd : Rule Bool} {item : Rule Expr} {b : Nat}
    (e : Yields n isEnd fun _ => True) (h : Yields n item (Expr.Shallow b)) :
    Yields n (tupleOr isEnd item) (Expr.Shallow (b + 1)) := by
  unfold tupleOr
  refine .skip .here fun start => h.bind fun first holds => .skip .isNext fun more => .ite ?_ ?_
  · refine (Yields.furtherItems e h holds).bind fun items all => ?_
    exact .skip .spanFrom fun span => .pure (Expr.shallow_of_held rfl (forall_mem_expr.2 all))
  · exact .pure (holds.mono (Nat.le_succ b))

theorem toTarget_yields {n : Nesting} {use : Use} {e : Expr} {b : Nat} (h : e.Shallow b) :
    Yields n (lift (e.toTarget use)) (Expr.Shallow b) :=
  .lift fun _ found => Expr.shallow_toTarget e h found

/-- Arguments, and so a call of something that is not too deep, are shallow. -/
structure ArgumentsShallow (b : Nat) (args : List Expr) (keywords : List KeywordArg) : Prop where
  positional : ∀ e ∈ args, e.Shallow b
  keywords : ∀ k ∈ keywords, (Node.keyword k).Shallow b

theorem keyword_shallow {b : Nat} {name : Option String} {value : Expr} {span : Span}
    (h : value.Shallow b) : (Node.keyword (.mk name value span)).Shallow b :=
  Node.shallow_of_parts rfl (List.forall_mem_singleton.2 h)

theorem call_shallow {b : Nat} {callee : Expr} {args : List Expr} {keywords : List KeywordArg}
    {span : Span} (h : callee.Shallow (b + 20)) (all : ArgumentsShallow b args keywords) :
    (Expr.call callee args keywords span).Shallow (b + 1) := by
  refine Expr.shallow_iff.2 ⟨?_, List.forall_mem_singleton.2 h⟩
  simp only [Expr.held, List.forall_mem_append, List.forall_mem_map]
  exact ⟨all.positional, all.keywords⟩

/-- The parameters of an entry. -/
def entryParams : ParamEntry → List Param
  | .slash => []
  | .star rest => rest.toList
  | .doubleStar names => [names]
  | .plain p => [p]

/-- Every parameter has the property. -/
def AllParams (P : Param → Prop) : Parameters → Prop
  | .mk args vararg nameOnly kwarg =>
    (∀ p ∈ args, P p) ∧ (∀ p ∈ vararg, P p) ∧ (∀ p ∈ nameOnly, P p) ∧ ∀ p ∈ kwarg, P p

theorem forall_mem_or {P : Param → Prop} {first second : Option Param} (h : ∀ p ∈ first, P p)
    (h' : ∀ p ∈ second, P p) : ∀ p ∈ first.or second, P p := by
  cases first with
  | none => exact h'
  | some p => exact h

/-- Sorting parameters makes up none. -/
theorem allParams_sort {P : Param → Prop} (flag : Bool) {entries : List ParamEntry}
    (all : ∀ entry ∈ entries, ∀ p ∈ entryParams entry, P p) :
    AllParams P (ParamEntry.sort flag entries) := by
  fun_induction ParamEntry.sort flag entries with
  | case1 flag =>
    exact ⟨List.forall_mem_nil _, forall_mem_none, List.forall_mem_nil _, forall_mem_none⟩
  | case2 flag rest ih => exact ih (List.forall_mem_cons.1 all).2
  | case3 flag rest vararg args later byName kwarg sorted ih =>
    obtain ⟨here, others⟩ := List.forall_mem_cons.1 all
    have holds := ih others
    rw [sorted] at holds
    exact ⟨holds.1, forall_mem_or holds.2.1 fun p member => here p (Option.mem_toList.2 member),
      holds.2.2⟩
  | case4 flag rest names args vararg byName later sorted ih =>
    obtain ⟨here, others⟩ := List.forall_mem_cons.1 all
    have holds := ih others
    rw [sorted] at holds ⊢
    have this := forall_mem_some (List.forall_mem_singleton.1 here)
    exact ⟨holds.1, holds.2.1, holds.2.2.1, forall_mem_or holds.2.2.2 this⟩
  | case5 rest param args vararg byName kwarg sorted ih =>
    obtain ⟨here, others⟩ := List.forall_mem_cons.1 all
    have holds := ih others
    rw [sorted] at holds ⊢
    have this := List.forall_mem_singleton.1 here
    exact ⟨List.forall_mem_cons.2 ⟨this, holds.1⟩, holds.2⟩
  | case6 rest param args vararg byName kwarg sorted ih =>
    obtain ⟨here, others⟩ := List.forall_mem_cons.1 all
    have holds := ih others
    rw [sorted] at holds ⊢
    have this := List.forall_mem_singleton.1 here
    exact ⟨holds.1, holds.2.1, List.forall_mem_cons.2 ⟨this, holds.2.2.1⟩, holds.2.2.2⟩

section

variable {n : Nesting} {k : Knot} (limited : 0 < n.limit) (bounded : Bounded k)
include limited bounded

theorem wholeExpression_yields : Yields n k.expression (Expr.Shallow (20 * n.room)) :=
  (bounded.expression n limited).mono fun _ holds => holds.mono (Nat.sub_le _ _)

theorem operation_yields (min : Level) :
    Yields n (k.operation min) (Expr.Shallow (20 * n.room + height min)) :=
  fun s => (bounded.operation n limited min s).mono fun _ _ both => both.1

theorem starredOperand_yields : Yields n (starredOperand k) (Expr.Shallow (20 * n.room + 11)) := by
  have operand : Yields n (k.operation .bitOr) (Expr.Shallow (20 * n.room + 11)) :=
    operation_yields limited bounded .bitOr
  unfold starredOperand
  refine .skip .here fun start => .skip .accept fun starred => .ite ?_ operand
  refine operand.bind fun value holds => .skip .spanFrom fun span => .pure ?_
  exact starred_shallow (b := 20 * n.room + 10) (holds.mono (by omega))

/-- An expression with a star is not deeper than one without, as what the star holds is loose. -/
theorem starredExpression_tight :
    Yields n (starredExpression k) (Expr.Shallow (20 * n.room - 4 + 1)) := by
  intro s
  unfold starredExpression
  refine Ensures.bind .isNext ?_
  rintro _ s - ⟨rfl, rfl⟩
  split
  · rename_i star
    -- the star that comes next is taken
    unfold starredOperand
    refine Ensures.bind .here ?_
    rintro start s - rfl
    refine Ensures.bind .accept ?_
    rintro _ t - (⟨rfl, -, -⟩ | ⟨-, other, -⟩)
    · refine (operation_yields limited bounded .bitOr).bind (fun value holds => ?_) t
      refine .skip .spanFrom fun span => .pure (starred_shallow (holds.mono ?_))
      change 20 * n.room + 11 ≤ _
      omega
    · exact absurd (beq_iff_eq.1 star) other
  · exact (bounded.expression n limited s).mono fun e _ holds => holds.mono (Nat.le_succ _)

theorem expressions_tight : Yields n (expressions k) (Expr.Shallow (20 * n.room - 4 + 2)) :=
  tupleOr_yields isExpressionEnd_yields (starredExpression_tight limited bounded)

theorem starredExpression_yields :
    Yields n (starredExpression k) (Expr.Shallow (20 * n.room + 1)) :=
  (starredExpression_tight limited bounded).mono fun _ holds => holds.mono (by omega)

theorem expressions_yields : Yields n (expressions k) (Expr.Shallow (20 * n.room + 2)) :=
  (expressions_tight limited bounded).mono fun _ holds => holds.mono (by omega)

theorem namedExpression_yields :
    Yields n (namedExpression k) (Expr.Shallow (20 * n.room + 2)) := by
  have expression := wholeExpression_yields limited bounded
  unfold namedExpression
  refine .skip .here fun start => expression.bind fun target holds => .skip .isNext fun more => ?_
  refine .ite ?_ (.pure (holds.mono (by omega)))
  split
  · refine .skip .take fun _ => expression.bind fun value holds' => ?_
    refine .skip .spanFrom fun span => .pure (Expr.shallow_of_held rfl ?_)
    simp only [Expr.held, Expr.parts, List.forall_mem_cons]
    exact ⟨shallow_leaf rfl rfl, holds'.mono (by omega), List.forall_mem_nil _⟩
  · exact .fail

theorem loopTarget_yields : Yields n (loopTarget k) (Expr.Shallow (20 * n.room + 12)) := by
  unfold loopTarget
  exact (tupleOr_yields .isNext (starredOperand_yields limited bounded)).bind fun _ holds =>
    toTarget_yields holds

theorem comprehension_yields : Yields n (comprehension k) fun g =>
    (Node.comprehension g).Shallow (20 * n.room + 15) := by
  have operation : Yields n (k.operation .or) (Expr.Shallow (20 * n.room + 15)) :=
    operation_yields limited bounded .or
  unfold comprehension
  refine .skip .here fun start => .skip .expect fun _ => ?_
  refine (loopTarget_yields limited bounded).bind fun target holds => .skip .expect fun _ => ?_
  refine operation.bind fun source holds' => ?_
  refine (Yields.many (.when? .accept operation)).bind fun conditions all => ?_
  refine .skip .spanFrom fun span => .pure (Node.shallow_of_parts rfl ?_)
  simp only [Node.parts, List.forall_mem_cons, forall_mem_expr]
  exact ⟨holds.mono (by omega), holds', all⟩

theorem comprehensions_yields : Yields n (comprehensions k) fun generators =>
    ∀ g ∈ generators, (Node.comprehension g).Shallow (20 * n.room + 15) :=
  .many (.when? .isNext (comprehension_yields limited bounded))

theorem yieldExpression_yields :
    Yields n (yieldExpression k) (Expr.Shallow (20 * n.room + 3)) := by
  unfold yieldExpression
  refine .skip .here fun start => .skip .expect fun _ => .skip .accept fun isFrom => .ite ?_ ?_
  · refine (wholeExpression_yields limited bounded).bind fun value holds => ?_
    refine .skip .spanFrom fun span => .pure (Expr.shallow_of_held rfl ?_)
    simp only [Expr.held, Expr.parts, List.forall_mem_singleton]
    exact holds.mono (by omega)
  · have present : Yields n (return !(← isExpressionEnd)) fun _ => True :=
      isExpressionEnd_yields.skip fun _ => .pure trivial
    refine (Yields.when? present (expressions_yields limited bounded)).bind fun value holds => ?_
    exact .skip .spanFrom fun span => .pure (Expr.shallow_of_held rfl (forall_mem_optional.2 holds))

/-! ### Brackets -/

theorem displayItems_yields {first : Expr} {closing : Mark} {b : Nat}
    (h : first.Shallow (20 * n.room + b + 1)) :
    Yields n (displayItems k first closing) fun items =>
      ∀ e ∈ items, e.Shallow (20 * n.room + b + 1) := by
  unfold displayItems
  have item := (starredExpression_yields limited bounded).mono
    fun e (holds : e.Shallow _) => holds.mono (c := 20 * n.room + b + 1) (by omega)
  exact (Yields.furtherItems .isNext item h).bind fun items all => .skip .expect fun _ => .pure all

theorem displayClauses_yields {closing : Mark} :
    Yields n (displayClauses k closing) fun generators =>
      ∀ g ∈ generators, (Node.comprehension g).Shallow (20 * n.room + 15) :=
  (comprehensions_yields limited bounded).bind fun _ all => .skip .expect fun _ => .pure all

theorem parenthesized_yields {start : Pos} :
    Yields n (parenthesized k start) (Expr.Shallow (20 * n.room + 16)) := by
  unfold parenthesized
  refine .skip .accept fun empty => .ite (.skip .spanFrom fun _ => .pure (shallow_leaf rfl rfl)) ?_
  refine .skip .isNext fun isYield => .ite ?_ ?_
  · refine (yieldExpression_yields limited bounded).bind fun value holds => ?_
    exact .skip .expect fun _ => .pure (holds.mono (by omega))
  · have starred := starredOperand_yields limited bounded
    have named := (namedExpression_yields limited bounded).mono
      fun e (holds : e.Shallow _) => holds.mono (c := 20 * n.room + 11) (by omega)
    refine .skip .isNext fun star => .ite (starred.bind ?rest) (named.bind ?rest)
    intro first holds
    refine .skip .isNext fun isFor => .ite ?_ (.skip .accept fun alone => .ite ?_ ?_)
    · refine (displayClauses_yields limited bounded).bind fun generators all => ?_
      refine .skip .spanFrom fun span => .pure ?_
      have clauses : ∀ g ∈ generators, (Node.comprehension g).Shallow (20 * n.room + 15 + 20) :=
        fun g member => (all g member).mono (Nat.le_add_right _ _)
      exact generator_shallow (holds.mono (by omega)) clauses
    · exact .pure (holds.mono (by omega))
    · refine (displayItems_yields limited bounded holds).bind fun items all => ?_
      refine .skip .spanFrom fun span => .pure (Expr.shallow_of_held (b := 20 * n.room + 15) rfl ?_)
      exact forall_mem_expr.2 fun e member => (all e member).mono (by omega)

theorem listDisplay_yields {start : Pos} :
    Yields n (listDisplay k start) (Expr.Shallow (20 * n.room + 16)) := by
  unfold listDisplay
  refine .skip .accept fun empty => .ite (.skip .spanFrom fun _ => .pure (shallow_leaf rfl rfl)) ?_
  refine (starredExpression_yields limited bounded).bind fun first holds => ?_
  refine .skip .isNext fun isFor => .ite ?_ ?_
  · refine (displayClauses_yields limited bounded).bind fun generators all => ?_
    refine .skip .spanFrom fun span => .pure (Expr.shallow_of_held rfl ?_)
    simp only [Expr.held, Expr.parts, List.forall_mem_cons, List.forall_mem_map]
    exact ⟨holds.mono (by omega), all⟩
  · refine (displayItems_yields limited bounded (b := 0) holds).bind fun items all => ?_
    refine .skip .spanFrom fun span => .pure (Expr.shallow_of_held rfl (forall_mem_expr.2 ?_))
    exact fun e member => (all e member).mono (by omega)

theorem dictEntry_yields : Yields n (dictEntry k) fun entry =>
    ∀ e ∈ entry.exprs, e.Shallow (20 * n.room + 11) := by
  have operation : Yields n (k.operation .bitOr) (Expr.Shallow (20 * n.room + 11)) :=
    operation_yields limited bounded .bitOr
  have expression := (wholeExpression_yields limited bounded).mono
    fun e (holds : e.Shallow _) => holds.mono (c := 20 * n.room + 11) (by omega)
  unfold dictEntry
  refine .skip .accept fun unpacks => .ite ?_ ?_
  · exact operation.bind fun mapping holds => .pure (List.forall_mem_singleton.2 holds)
  · refine expression.bind fun key holds => .skip .expect fun _ =>
      expression.bind fun value holds' => ?_
    refine .pure (List.forall_mem_cons.2 ⟨holds, List.forall_mem_singleton.2 holds'⟩)

theorem dictFrom_yields {start : Pos} {first : DictEntry}
    (h : ∀ e ∈ first.exprs, e.Shallow (20 * n.room + 11)) :
    Yields n (dictFrom k start first) (Expr.Shallow (20 * n.room + 16)) := by
  unfold dictFrom
  have entry := dictEntry_yields limited bounded
  refine (Yields.furtherItems .isNext entry h).bind fun entries all => ?_
  refine .skip .expect fun _ => .skip .spanFrom fun span => .pure (Expr.shallow_of_held rfl ?_)
  refine forall_mem_expr.2 fun e member => ?_
  obtain ⟨entry, inside, part⟩ := List.mem_flatMap.1 member
  exact (all entry inside e part).mono (by omega)

theorem braceDisplay_yields {start : Pos} :
    Yields n (braceDisplay k start) (Expr.Shallow (20 * n.room + 16)) := by
  have operation : Yields n (k.operation .bitOr) (Expr.Shallow (20 * n.room + 11)) :=
    operation_yields limited bounded .bitOr
  unfold braceDisplay
  refine .skip .accept fun empty => .ite (.skip .spanFrom fun _ => .pure (shallow_leaf rfl rfl)) ?_
  refine .skip .accept fun unpacks => .ite ?_ ?_
  · exact operation.bind fun mapping holds =>
      dictFrom_yields limited bounded (List.forall_mem_singleton.2 holds)
  refine (starredExpression_yields limited bounded).bind fun first holds => ?_
  refine .skip .accept fun isDict => .ite ?_ (.skip .isNext fun isFor => .ite ?_ ?_)
  · refine (wholeExpression_yields limited bounded).bind fun value holds' => ?_
    refine .skip .isNext fun isFor => .ite ?_ ?_
    · refine (displayClauses_yields limited bounded).bind fun generators all => ?_
      refine .skip .spanFrom fun span => .pure (Expr.shallow_of_held rfl ?_)
      simp only [Expr.held, Expr.parts, List.forall_mem_cons, List.forall_mem_map]
      exact ⟨holds.mono (by omega), holds'.mono (by omega), all⟩
    · refine dictFrom_yields limited bounded (List.forall_mem_cons.2 ⟨holds.mono (by omega), ?_⟩)
      exact List.forall_mem_singleton.2 (holds'.mono (by omega))
  · refine (displayClauses_yields limited bounded).bind fun generators all => ?_
    refine .skip .spanFrom fun span => .pure (Expr.shallow_of_held rfl ?_)
    simp only [Expr.held, Expr.parts, List.forall_mem_cons, List.forall_mem_map]
    exact ⟨holds.mono (by omega), all⟩
  · refine (displayItems_yields limited bounded (b := 0) holds).bind fun items all => ?_
    refine .skip .spanFrom fun span => .pure (Expr.shallow_of_held rfl (forall_mem_expr.2 ?_))
    exact fun e member => (all e member).mono (by omega)

/-! ### Arguments, indices and parameters -/

theorem positionalArgument_yields {start : Pos} :
    Yields n (positionalArgument k start) (Expr.Shallow (20 * n.room + 3)) := by
  unfold positionalArgument
  refine (namedExpression_yields limited bounded).bind fun value holds => ?_
  refine .skip .isNext fun isFor => .ite ?_ (.pure (holds.mono (by omega)))
  refine (comprehensions_yields limited bounded).bind fun generators all => ?_
  refine .skip .spanFrom fun span => .pure (generator_shallow holds fun g member => ?_)
  exact (all g member).mono (by omega)

theorem argument_yields {read : Arguments}
    (h : ArgumentsShallow (20 * n.room + 3) read.positional read.keywords) :
    Yields n (argument k read) fun args =>
      ArgumentsShallow (20 * n.room + 3) args.positional args.keywords := by
  have expression := wholeExpression_yields limited bounded
  have withPositional {value : Expr} (holds : value.Shallow (20 * n.room + 3)) :
      ArgumentsShallow (20 * n.room + 3) (read.addPositional value).positional
        (read.addPositional value).keywords :=
    ⟨List.forall_mem_cons.2 ⟨holds, h.positional⟩, h.keywords⟩
  have withKeyword {name : Option String} {value : Expr} {span : Span}
      (holds : value.Shallow (20 * n.room)) :
      ArgumentsShallow (20 * n.room + 3) (read.addKeyword (.mk name value span)).positional
        (read.addKeyword (.mk name value span)).keywords :=
    ⟨h.positional, List.forall_mem_cons.2 ⟨keyword_shallow (holds.mono (by omega)), h.keywords⟩⟩
  unfold argument
  refine .skip .here fun start => .skip .accept fun mapping => .ite ?_ ?_
  · exact expression.bind fun value holds => .skip .spanFrom fun span => .pure (withKeyword holds)
  refine .skip .accept fun star => .ite ?_ ?_
  · refine expression.bind fun value holds => .skip .spanFrom fun span => .pure (withPositional ?_)
    exact starred_shallow (b := 20 * n.room + 2) (holds.mono (by omega))
  refine isKeywordNext_yields.skip fun named => .ite ?_ ?_
  · refine .skip .name fun name => .skip .take fun _ => expression.bind fun value holds => ?_
    exact .skip .spanFrom fun span => .ite .fail (.pure (withKeyword holds))
  · refine (positionalArgument_yields limited bounded).bind fun value holds => ?_
    exact .ite (.pure (withPositional holds)) .fail

theorem arguments_yields : Yields n (arguments k) fun args =>
    ArgumentsShallow (20 * n.room + 3) args.1 args.2 := by
  have nothing : ArgumentsShallow (20 * n.room + 3) [] [] :=
    ⟨List.forall_mem_nil _, List.forall_mem_nil _⟩
  unfold arguments
  refine (Yields.addItems (P := fun args =>
    ArgumentsShallow (20 * n.room + 3) args.positional args.keywords) .isNext
    (fun read h => argument_yields limited bounded h) nothing).bind fun args all => ?_
  refine .skip .expect fun _ => .pure ⟨fun e member => ?_, fun k member => ?_⟩
  · exact all.positional e (List.mem_reverse.1 member)
  · exact all.keywords k (List.mem_reverse.1 member)

theorem sliceBound_yields : Yields n (sliceBound k) fun bound? =>
    ∀ e ∈ bound?, e.Shallow (20 * n.room + 1) := by
  unfold sliceBound
  refine .skip .look fun kind => ?_
  split
  iterate 3 exact .pure forall_mem_none
  exact (wholeExpression_yields limited bounded).map fun e holds =>
    forall_mem_some (holds.mono (by omega))

theorem sliceFrom_yields {start : Pos} {lower : Option Expr}
    (h : ∀ e ∈ lower, e.Shallow (20 * n.room + 1)) :
    Yields n (sliceFrom k start lower) (Expr.Shallow (20 * n.room + 2)) := by
  have bound := sliceBound_yields limited bounded
  unfold sliceFrom
  refine .skip .expect fun _ => bound.bind fun upper holds => .skip .accept fun more => ?_
  refine .ite (bound.bind ?rest) (.bind (.pure forall_mem_none) ?rest)
  intro step holds'
  refine .skip .spanFrom fun span => .pure (Expr.shallow_of_held rfl ?_)
  simp only [Expr.held, Expr.parts, List.map_append, List.forall_mem_append, forall_mem_optional]
  exact ⟨⟨h, holds⟩, holds'⟩

theorem slice_yields : Yields n (slice k) (Expr.Shallow (20 * n.room + 2)) := by
  unfold slice
  refine .skip .here fun start => .skip .isNext fun colon => .ite ?_ ?_
  · exact sliceFrom_yields limited bounded forall_mem_none
  refine (starredExpression_yields limited bounded).bind fun index holds => ?_
  refine .skip .isNext fun colon => .ite ?_ (.pure (holds.mono (by omega)))
  exact sliceFrom_yields limited bounded (forall_mem_some holds)

theorem slices_yields : Yields n (slices k) (Expr.Shallow (20 * n.room + 3)) :=
  tupleOr_yields .isNext (slice_yields limited bounded)

theorem param_yields (annotated : Bool) : Yields n (param k annotated) fun p =>
    (Node.param p).Shallow (20 * n.room) := by
  unfold param
  refine .skip .here fun start => .skip .name fun name => ?_
  refine .ite (Yields.bind (.when? .accept (wholeExpression_yields limited bounded)) ?rest)
    (.bind (.pure forall_mem_none) ?rest)
  intro hint holds
  refine .skip .spanFrom fun span => .pure (Node.shallow_of_parts rfl ?_)
  simp only [Node.parts, List.map_append, List.forall_mem_append, forall_mem_optional]
  exact ⟨holds, forall_mem_none⟩

theorem paramEntry_yields {annotated : Bool} {closing : Mark} :
    Yields n (paramEntry k annotated closing) fun entry =>
      ∀ p ∈ entryParams entry, (Node.param p).Shallow (20 * n.room) := by
  have param := param_yields limited bounded annotated
  unfold paramEntry
  refine .skip .accept fun slash => .ite (.pure (List.forall_mem_nil _)) ?_
  refine .skip .accept fun names => .ite ?_ ?_
  · exact param.bind fun p holds => .pure (List.forall_mem_singleton.2 holds)
  refine .skip .accept fun star => .ite ?_ ?_
  · refine .skip .isNext fun alone => .ite (.pure (List.forall_mem_nil _)) ?_
    refine .skip .isNext fun last => .ite (.pure (List.forall_mem_nil _)) ?_
    exact param.bind fun p holds => .pure (List.forall_mem_singleton.2 holds)
  · refine param.bind fun p holds => ?_
    obtain ⟨name, hint, default, span⟩ := p
    refine (Yields.when? .accept (wholeExpression_yields limited bounded)).bind
      fun default' holds' => ?_
    refine .pure (List.forall_mem_singleton.2 (Node.shallow_of_parts rfl ?_))
    rw [Node.shallow_iff_parts rfl] at holds
    simp only [Node.parts, List.map_append, List.forall_mem_append, forall_mem_optional] at holds ⊢
    exact ⟨holds.1, holds'⟩

theorem parameters_yields {annotated : Bool} {closing : Mark} :
    Yields n (parameters k annotated closing) fun ps =>
      (Node.parameters ps).Shallow (20 * n.room) := by
  unfold parameters
  refine (Yields.items .isNext (paramEntry_yields limited bounded)).bind fun entries all => .pure ?_
  have params := allParams_sort false all
  cases sorted : ParamEntry.sort false entries with
  | mk args vararg nameOnly kwarg =>
    rw [sorted] at params
    obtain ⟨inArgs, inVararg, inNameOnly, inKwarg⟩ := params
    refine Node.shallow_of_parts rfl ?_
    simp only [Node.parts, List.map_append, List.forall_mem_append, List.forall_mem_map,
      Option.mem_toList]
    exact ⟨⟨⟨inArgs, inVararg⟩, inNameOnly⟩, inKwarg⟩

end

end ScoreScript.Script.Grammar
