import ScoreScript.Proofs.Nesting.Part

/-!
Literals, operators, and whole expressions. Operations are read in a loop that puts what it has
read so far to the left of the next operator, where a chain does not end (`Expr.loose`), or among
the operands of a chain of `or`, `and` or comparisons, where it does. That the loop stays below
the height of its level is due to the order in which joints can follow one another
(`extend_ensures`).
-/

namespace ScoreScript.Script

/-! ### Levels -/

namespace Level

theorem rank_injective {level level' : Level} (same : level.rank = level'.rank) :
    level = level' := by
  cases level <;> cases level' <;> first | rfl | cases same

theorem rank_next_le (level : Level) : level.next.rank ≤ level.rank + 1 := by
  cases level <;> decide

end Level

theorem BinaryOperator.level?_cases {op : BinaryOperator} {level : Level}
    (found : op.level? = some level) :
    Level.bitOr.rank ≤ level.rank ∧ level.rank < Level.factor.rank := by
  cases op <;> cases found <;> decide

/-- What a joint can be: a word or a comparison at its own level, or an operator at one of the
levels that are tighter. -/
theorem Joint.ofKinds?_cases {first second : TokenKind} {level : Level} {joint : Joint}
    (found : ofKinds? first second = some (level, joint)) :
    (first = .keyword .orKw ∧ level = .or ∧ joint = .boolean .orKw .or) ∨
    (first = .keyword .andKw ∧ level = .and ∧ joint = .boolean .andKw .and) ∨
    ((CompareOperator.ofKinds? first second).isSome ∧ level = .compare ∧ joint = .compare) ∨
    (first.isEof = false ∧ ∃ op : BinaryOperator, op.level? = some level ∧ joint = .binary op) := by
  unfold ofKinds? at found
  split at found
  · cases found
    exact .inl ⟨rfl, rfl, rfl⟩
  · cases found
    exact .inr (.inl ⟨rfl, rfl, rfl⟩)
  · split at found
    · rename_i compares
      cases found
      exact .inr (.inr (.inl ⟨compares, rfl, rfl⟩))
    · split at found
      · obtain ⟨op, -, found⟩ := Option.bind_eq_some_iff.1 found
        obtain ⟨level', known, ⟨⟩⟩ := Option.bind_eq_some_iff.1 found
        exact .inr (.inr (.inr ⟨rfl, op, known, rfl⟩))
      · cases found

namespace Grammar

open Rule

variable {n : Nesting} {k : Knot}

/-! ### String literals -/

theorem holeValue_yields {source : String} {span : Span} (limited : 0 < n.limit)
    (bounded : Bounded k) :
    Yields n (holeValue k source span) (Expr.Shallow (20 * n.room + 18)) := by
  intro s value t done
  unfold holeValue at done
  rw [if_neg (Nat.ne_of_gt limited)] at done
  dsimp only at done
  split at done
  · rename_i found
    cases done
    have positive : 0 < max (n.limit - n.depth) 1 := by omega
    refine ⟨Nat.le_refl _, (bounded.hole _ source value positive found).mono ?_⟩
    unfold Nesting.room
    omega
  · cases done

mutual

/-- A hole is one level deeper. Where no level is left for its value it is read with room for one,
but the star of an expression is loose, and without one the value takes that level. -/
theorem formatPiece_yields {span : Span} (bounded : Bounded k) : (piece : FormatPiece) →
    ∀ {n : Nesting}, 0 < n.limit →
      Yields n (formatPiece k span piece) (Expr.Shallow (20 * n.room + 1))
  | .literal text, n, limited => by
    rw [formatPiece]
    exact .pure (shallow_leaf rfl rfl)
  | .hole source conversion none, n, limited => by
    rw [formatPiece]
    refine .nested limited fun m limited' level => ?_
    refine (holeValue_yields limited' bounded).bind fun value holds => .pure ?_
    refine Expr.shallow_of_held rfl (List.forall_mem_singleton.2 (holds.mono ?_))
    omega
  | .hole source conversion (some pieces), n, limited => by
    rw [formatPiece]
    refine .nested limited fun m limited' level => ?_
    refine (holeValue_yields limited' bounded).bind fun value holds => ?_
    refine (formatPieces_yields bounded pieces limited').bind fun parts all => .pure ?_
    have spec : (Expr.joined parts span).Shallow (20 * m.room + 2) :=
      Expr.shallow_of_held rfl (forall_mem_expr.2 all)
    refine Expr.shallow_of_held rfl (List.forall_mem_cons.2 ⟨holds.mono ?_, ?_⟩)
    · omega
    · exact List.forall_mem_singleton.2 (spec.mono (by omega))

theorem formatPieces_yields {span : Span} (bounded : Bounded k) : (pieces : List FormatPiece) →
    ∀ {n : Nesting}, 0 < n.limit → Yields n (formatPieces k span pieces) fun parts =>
      ∀ e ∈ parts, e.Shallow (20 * n.room + 1)
  | [], n, limited => by
    rw [formatPieces]
    exact .pure (List.forall_mem_nil _)
  | piece :: rest, n, limited => by
    rw [formatPieces]
    refine (formatPiece_yields bounded piece limited).bind fun first holds => ?_
    refine (formatPieces_yields bounded rest limited).bind fun others all => .pure ?_
    exact List.forall_mem_cons.2 ⟨holds, all⟩

end

section

variable (limited : 0 < n.limit) (bounded : Bounded k)

/-- Text that is closed is one more leaf among the parts. -/
theorem closeText_shallow {b : Nat} {j : Joining} {stop : Pos}
    (h : ∀ e ∈ j.parts, e.Shallow (b + 1)) : ∀ e ∈ (j.closeText stop).parts, e.Shallow (b + 1) := by
  unfold Joining.closeText
  split
  · exact h
  · exact List.forall_mem_cons.2 ⟨shallow_leaf rfl rfl, h⟩

theorem toExpr_shallow {b : Nat} {j : Joining} {span : Span}
    (h : ∀ e ∈ j.parts, e.Shallow (b + 1)) : (j.toExpr span).Shallow (b + 2) := by
  unfold Joining.toExpr
  split
  · exact shallow_leaf rfl rfl
  · split
    · refine Expr.shallow_of_held rfl (forall_mem_expr.2 fun e member => ?_)
      exact closeText_shallow h e (List.mem_reverse.1 member)
    · exact shallow_leaf rfl rfl

include limited bounded

theorem joinPieces_yields {span : Span} {pieces : List FormatPiece} :
    ∀ {j : Joining}, (∀ e ∈ j.parts, e.Shallow (20 * n.room + 1)) →
      Yields n (joinPieces k span j pieces) fun j =>
        ∀ e ∈ j.parts, e.Shallow (20 * n.room + 1) := by
  induction pieces with
  | nil => exact fun h => .pure h
  | cons piece rest ih =>
    intro j h
    cases piece with
    | literal text => exact ih h
    | hole source conversion spec =>
      refine (formatPiece_yields bounded _ limited).bind fun part holds => ih ?_
      exact List.forall_mem_cons.2 ⟨holds, closeText_shallow h⟩

theorem joinLiteral_yields {j : Joining} {value : String} {kind : StringKind} {span : Span}
    (h : ∀ e ∈ j.parts, e.Shallow (20 * n.room + 1)) :
    Yields n (joinLiteral k j value kind span) fun j =>
      ∀ e ∈ j.parts, e.Shallow (20 * n.room + 1) := by
  unfold joinLiteral
  split
  · exact .ite .fail (.pure h)
  · exact .fail
  · exact .pure h
  · split
    · exact joinPieces_yields limited bounded h
    · exact .fail

theorem strings_yields : Yields n (strings k) (Expr.Shallow (20 * n.room + 2)) := by
  unfold strings
  refine .skip .here fun start => ?_
  refine (Yields.loop (P := fun j => ∀ e ∈ j.parts, e.Shallow (20 * n.room + 1)) (fun j h => ?_)
    nofun).bind fun j h => .skip .spanFrom fun span => .pure (toExpr_shallow h)
  refine .skip .look fun kind => ?_
  split
  · exact .skip .take fun token => (joinLiteral_yields limited bounded h).map fun j h' =>
      forall_mem_some h'
  · exact .pure forall_mem_none

/-! ### Operands -/

theorem atom_yields : Yields n (atom k) (Expr.Shallow (20 * n.room + 2)) := by
  have brackets {rule : Rule Expr}
      (h : ∀ m : Nesting, 0 < m.limit → Yields m rule (Expr.Shallow (20 * m.room + 16))) :
      Yields n (nested rule) (Expr.Shallow (20 * n.room + 2)) :=
    .nested limited fun m limited' level => (h m limited').mono fun e holds => holds.mono (by omega)
  unfold atom
  refine .skip .here fun start => .skip .look fun kind => ?_
  split
  · exact .skip .take fun token => .pure (shallow_leaf rfl rfl)
  · exact strings_yields limited bounded
  · exact .skip .take fun _ => brackets fun m limited' => parenthesized_yields limited' bounded
  · exact .skip .take fun _ => brackets fun m limited' => listDisplay_yields limited' bounded
  · exact .skip .take fun _ => brackets fun m limited' => braceDisplay_yields limited' bounded
  · split
    · exact .skip .take fun token => .pure (shallow_leaf rfl rfl)
    · exact .unexpected

/-- A call, an index or a member does not make an expression deeper: what it is of is loose. -/
theorem postfixed_yields {start : Pos} {owner : Expr} (h : owner.Shallow (20 * n.room + 4)) :
    Yields n (postfixed k start owner) fun e? => ∀ e ∈ e?, e.Shallow (20 * n.room + 4) := by
  have further : owner.Shallow (20 * n.room + 3 + 20) := h.mono (by omega)
  unfold postfixed
  refine .skip .accept fun call => .ite ?_ (.skip .accept fun index => .ite ?_
    (.skip .accept fun member => .ite ?_ (.pure forall_mem_none)))
  · refine (arguments_yields limited bounded).bind fun args all => ?_
    exact .skip .spanFrom fun span => .pure (forall_mem_some (call_shallow further all))
  · refine (slices_yields limited bounded).bind fun index holds => .skip .expect fun _ => ?_
    refine .skip .spanFrom fun span => .pure (forall_mem_some (Expr.shallow_iff.2 ⟨?_, ?_⟩))
    · exact List.forall_mem_singleton.2 holds
    · exact List.forall_mem_singleton.2 further
  · refine .skip .name fun field => .skip .spanFrom fun span => .pure (forall_mem_some ?_)
    exact Expr.shallow_iff.2 ⟨List.forall_mem_nil _, List.forall_mem_singleton.2 further⟩

theorem primary_yields : Yields n (primary k) (Expr.Shallow (20 * n.room + 4)) := by
  unfold primary
  refine .skip .here fun start => (atom_yields limited bounded).bind fun e holds => ?_
  exact .loop (fun owner h => postfixed_yields limited bounded h) (holds.mono (by omega))

theorem nestedFactor_yields : Yields n (nested k.factor) (Expr.Shallow (20 * n.room + 4)) :=
  .nested limited fun m limited' level =>
    (bounded.factor m limited').mono fun e holds => holds.mono (by omega)

theorem power_yields : Yields n (power k) (Expr.Shallow (20 * n.room + 5)) := by
  have operand := primary_yields limited bounded
  unfold power
  refine .skip .here fun start => .skip .accept fun awaits => .ite
    (operand.bind fun value holds => .skip .spanFrom fun span =>
      .bind (P := Expr.Shallow (20 * n.room + 5)) (.pure ?_) ?rest)
    (.bind (operand.mono fun e holds => holds.mono (Nat.le_succ _)) ?rest)
  · exact Expr.shallow_of_held rfl (List.forall_mem_singleton.2 holds)
  intro base holds
  refine .skip .accept fun raised => .ite ?_ (.pure holds)
  refine (nestedFactor_yields limited bounded).bind fun exponent holds' => ?_
  refine .skip .spanFrom fun span => .pure (Expr.shallow_iff.2 ⟨?_, ?_⟩)
  · exact List.forall_mem_singleton.2 holds'
  · exact List.forall_mem_singleton.2 (holds.mono (by omega))

theorem factor_yields : Yields n (factor k) (Expr.Shallow (20 * n.room + 5)) := by
  unfold factor
  refine .skip .here fun start => .skip .look fun kind => ?_
  split
  · refine .skip .take fun _ => (nestedFactor_yields limited bounded).bind fun operand holds => ?_
    refine .skip .spanFrom fun span => .pure (Expr.shallow_of_held rfl ?_)
    exact List.forall_mem_singleton.2 holds
  · exact power_yields limited bounded

theorem firstOperand_yields {min : Level} :
    Yields n (firstOperand k min) (Expr.Shallow (20 * n.room + 5)) := by
  unfold firstOperand
  refine .skip .here fun start => .ite (.skip .accept ?rest) (.skip (.pure trivial) ?rest)
  refine fun negated => .ite ?_ (factor_yields limited bounded)
  refine Yields.bind (.nested limited fun m limited' level =>
    (operation_yields limited' bounded .not).mono fun e holds => ?_)
    fun operand (holds : operand.Shallow (20 * n.room)) => ?_
  · exact holds.mono (by change 20 * m.room + 13 ≤ _; omega)
  · refine .skip .spanFrom fun span => .pure (Expr.shallow_of_held (b := 20 * n.room + 4) rfl ?_)
    exact List.forall_mem_singleton.2 (holds.mono (by omega))

end

/-! ### Operators -/

theorem height_anti {level min : Level} (le : min.rank ≤ level.rank) : height level ≤ height min :=
  Nat.sub_le_sub_left le 15

/-- A looser level has a greater height. -/
theorem height_le_next {level level' : Level} (less : level'.rank < level.rank) :
    height level ≤ height level'.next :=
  height_anti (Nat.le_trans level'.rank_next_le less)

/-- The level of a joint is looser than that of its operands. -/
theorem height_next {first second : TokenKind} {level : Level} {joint : Joint}
    (found : Joint.ofKinds? first second = some (level, joint)) :
    height level.next + 1 = height level := by
  have operator : level ≠ .factor := by
    obtain ⟨-, rfl, -⟩ | ⟨-, rfl, -⟩ | ⟨-, rfl, -⟩ | ⟨-, op, known, -⟩ := Joint.ofKinds?_cases found
    iterate 3 decide
    rintro rfl
    exact absurd (BinaryOperator.level?_cases known).2 (Nat.lt_irrefl _)
  cases level <;> first | rfl | exact absurd rfl operator

/-- Where tighter operators have ended and none of this level comes next, those of this level have
ended as well. -/
theorem Ended.of_next {level : Level} {s : Stream} (tighter : Ended level.next s)
    (apart : ∀ joint, Joint.ofKinds? s.current.kind s.second.kind ≠ some (level, joint)) :
    Ended level s := by
  intro level' joint found
  have below := tighter level' joint found
  have step := level.rank_next_le
  rcases Nat.lt_or_ge level'.rank level.rank with less | more
  · exact less
  · obtain rfl := Level.rank_injective (show level'.rank = level.rank by omega)
    exact absurd found (apart joint)

/-- Before a joint the operators that are tighter have ended. -/
theorem ended_next {level : Level} {joint : Joint} {s : Stream}
    (found : Joint.ofKinds? s.current.kind s.second.kind = some (level, joint)) :
    Ended level.next s := by
  intro level' joint' found'
  cases found.symm.trans found'
  have step := height_next found
  unfold height at step
  omega

/-- The operands of a chain of joints of one level, up to where no further joint of the level
comes. -/
theorem chain_ensures {α : Type} {round : Rule (Option α)} {P : α → Prop} {level : Level}
    {joint : Joint} {s : Stream}
    (found : Joint.ofKinds? s.current.kind s.second.kind = some (level, joint))
    (each : ∀ u, Ensures n round u fun a? t =>
      (a? = none → t = u ∧
        ∀ joint, Joint.ofKinds? u.current.kind u.second.kind ≠ some (level, joint)) ∧
      ∀ a ∈ a?, P a ∧ Ended level.next t ∧ t.size < u.size) :
    Ensures n (many round) s fun items t =>
      (∀ a ∈ items, P a) ∧ Ended level t ∧ t.size < s.size := by
  refine Ensures.many (I := fun u => Ended level.next u ∧ (u = s ∨ u.size < s.size)) ?_
    ⟨ended_next found, .inl rfl⟩
  rintro u ⟨tighter, progress⟩
  refine (each u).mono fun a? t one => ⟨fun nothing => ?_, fun a some => ?_⟩
  · obtain ⟨rfl, apart⟩ := one.1 nothing
    refine ⟨tighter.of_next apart, progress.resolve_left ?_⟩
    rintro rfl
    exact apart joint found
  · obtain ⟨holds, tighter', less⟩ := one.2 a some
    refine ⟨holds, ⟨tighter', .inr ?_⟩, less⟩
    obtain rfl | less' := progress
    · exact less
    · exact Nat.lt_trans less less'

/-- At the level of a word there is no other joint. -/
theorem word_of_level {level : Level} {word : Keyword} {op : BooleanOperator} {joint : Joint}
    {first second first' second' : TokenKind}
    (found : Joint.ofKinds? first second = some (level, .boolean word op))
    (found' : Joint.ofKinds? first' second' = some (level, joint)) :
    Mark.ofKind? first' = some (.word word) := by
  have tighter (op' : BinaryOperator) (known : op'.level? = some level) : 4 ≤ level.rank :=
    (BinaryOperator.level?_cases known).1
  obtain ⟨-, rfl, ⟨⟩⟩ | ⟨-, rfl, ⟨⟩⟩ | ⟨-, -, ⟨⟩⟩ | ⟨-, -, -, ⟨⟩⟩ := Joint.ofKinds?_cases found <;>
    obtain ⟨rfl, ⟨⟩, -⟩ | ⟨rfl, ⟨⟩, -⟩ | ⟨-, ⟨⟩, -⟩ | ⟨-, op', known, -⟩ :=
      Joint.ofKinds?_cases found'
  · rfl
  · exact absurd (tighter op' known) (by decide)
  · rfl
  · exact absurd (tighter op' known) (by decide)

/-- What has been read so far is below the height of the level, and below that of the operands of
the next joint if that is a word or a comparison: these hold what is to the left of them. -/
structure Joins (n : Nesting) (min : Level) (left : Expr) (s : Stream) : Prop where
  shallow : left.Shallow (20 * n.room + height min)
  fits : ∀ level joint, Joint.ofKinds? s.current.kind s.second.kind = some (level, joint) →
    (∃ op, joint = .binary op) ∨ left.Shallow (20 * n.room + height level.next)

/-- Where operators of the level have ended, what it has read joins what comes. -/
theorem Joins.of_ended {min level : Level} {e : Expr} {s : Stream} (wide : min.rank ≤ level.rank)
    (h : e.Shallow (20 * n.room + height level)) (ended : Ended level s) : Joins n min e s := by
  refine ⟨h.mono (Nat.add_le_add_left (height_anti wide) _), fun level' joint found => .inr ?_⟩
  exact h.mono (Nat.add_le_add_left (height_le_next (ended level' joint found)) _)

/-- Whatever comes after a binary operator: words and comparisons are looser than it. -/
theorem Joins.of_binary {min level : Level} {op : BinaryOperator} {e : Expr} {s : Stream}
    (wide : min.rank ≤ level.rank) (known : op.level? = some level)
    (h : e.Shallow (20 * n.room + height level)) : Joins n min e s := by
  refine ⟨h.mono (Nat.add_le_add_left (height_anti wide) _), fun level' joint found => ?_⟩
  have tighter := (BinaryOperator.level?_cases known).1
  have looser (less : level'.rank < Level.bitOr.rank) :
      e.Shallow (20 * n.room + height level'.next) :=
    h.mono (Nat.add_le_add_left (height_le_next (Nat.lt_of_lt_of_le less tighter)) _)
  obtain ⟨-, rfl, -⟩ | ⟨-, rfl, -⟩ | ⟨-, rfl, -⟩ | ⟨-, op', -, rfl⟩ := Joint.ofKinds?_cases found
  iterate 3 exact .inr (looser (by decide))
  exact .inl ⟨op', rfl⟩

/-! ### Chains of operands -/

section

variable {P : Expr → Prop}

/-- The operands after the words `or` or `and`. -/
theorem words_ensures {level : Level} {word : Keyword} {op : BooleanOperator} {s : Stream}
    (operand : ∀ s, Ensures n (k.operation level.next) s fun e t => P e ∧ Ended level.next t)
    (found : Joint.ofKinds? s.current.kind s.second.kind = some (level, .boolean word op)) :
    Ensures n (many (when? (accept (.word word)) (k.operation level.next))) s fun rest t =>
      (∀ e ∈ rest, P e) ∧ Ended level t ∧ t.size < s.size := by
  refine chain_ensures found fun u => ?_
  refine Ensures.bind .accept ?_
  rintro _ t - (⟨rfl, -, less⟩ | ⟨rfl, other, rfl⟩)
  · refine (operand t).bind fun e t' le both => .pure ?_
    exact ⟨nofun, forall_mem_some ⟨both.1, both.2, Nat.lt_of_le_of_lt le less⟩⟩
  · exact .pure ⟨fun _ => ⟨rfl, fun joint found' => other (word_of_level found found')⟩,
      forall_mem_none⟩

variable (operand : ∀ s, Ensures n (k.operation .bitOr) s fun e t => P e ∧ Ended .bitOr t)
include operand

theorem comparison_ensures {s : Stream} :
    Ensures n (comparison k) s fun c? t =>
      (c? = none → t = s ∧ CompareOperator.ofKinds? s.current.kind s.second.kind = none) ∧
      ∀ c ∈ c?, P c.operand ∧ Ended .bitOr t ∧ t.size < s.size := by
  unfold comparison
  refine Ensures.bind .look ?_
  rintro _ s - ⟨rfl, rfl⟩
  refine Ensures.bind .lookAhead ?_
  rintro _ s - ⟨rfl, rfl⟩
  split
  · rename_i nothing
    exact .pure ⟨fun _ => ⟨rfl, nothing⟩, forall_mem_none⟩
  · rename_i op isLong some
    have present : s.current.kind.isEof = false := by
      cases kind : s.current.kind <;> first | rfl | (rw [kind] at some; cases some)
    refine Ensures.bind .take fun _ t _ less => ?_
    have last (u : Stream) (le : u.size ≤ t.size) : Ensures n
        (do return Option.some (Comparison.mk op (← k.operation Level.compare.next))) u fun c? v =>
          (c? = none → v = s ∧ CompareOperator.ofKinds? s.current.kind s.second.kind = none) ∧
          ∀ c ∈ c?, P c.operand ∧ Ended .bitOr v ∧ v.size < s.size := by
      refine (operand u).bind fun e v le' both => .pure ⟨nofun, ?_⟩
      have shorter := Nat.lt_of_le_of_lt (Nat.le_trans le' le) (less present)
      exact forall_mem_some ⟨both.1, both.2, shorter⟩
    split
    · exact Ensures.bind .take fun _ u le _ => last u le
    · exact last t (Nat.le_refl _)

theorem comparisons_ensures {s : Stream}
    (found : Joint.ofKinds? s.current.kind s.second.kind = some (.compare, .compare)) :
    Ensures n (many (comparison k)) s fun rest t =>
      (∀ c ∈ rest, P c.operand) ∧ Ended .compare t ∧ t.size < s.size := by
  refine chain_ensures found fun u => (comparison_ensures operand).mono fun c? t one => ?_
  refine ⟨fun nothing => ⟨(one.1 nothing).1, fun joint found' => ?_⟩, one.2⟩
  have none := (one.1 nothing).2
  obtain ⟨-, ⟨⟩, -⟩ | ⟨-, ⟨⟩, -⟩ | ⟨compares, -, -⟩ | ⟨-, op, known, -⟩ :=
    Joint.ofKinds?_cases found'
  · rw [none] at compares
    cases compares
  · exact absurd (BinaryOperator.level?_cases known).1 (by decide)

end

/-- There is one more node, read from what was left, and it joins what comes. -/
def Extends (n : Nesting) (min : Level) (s : Stream) (e? : Option Expr) (t : Stream) : Prop :=
  ∃ e, e? = some e ∧ Joins n min e t ∧ t.size < s.size

section

variable (limited : 0 < n.limit) (bounded : Bounded k)
include limited bounded

omit limited bounded in
/-- A node that joins what comes is finished by its span. -/
theorem finish_ensures {min : Level} {start : Pos} {s t : Stream} {e : Span → Expr}
    (less : t.size < s.size) (joins : ∀ span, Joins n min (e span) t) :
    Ensures n (do return some (e (← spanFrom start))) t (Extends n min s) := by
  refine Ensures.bind .spanFrom ?_
  rintro span t - rfl
  exact .pure ⟨_, rfl, joins span, less⟩

/-- Behind `or` or `and`, everything that is joined by the same word is one node. -/
theorem words_extend {min level : Level} {start : Pos} {left : Expr} {s : Stream} {word : Keyword}
    {op : BooleanOperator} (wide : min.rank ≤ level.rank) (joins : Joins n min left s)
    (found : Joint.ofKinds? s.current.kind s.second.kind = some (level, .boolean word op)) :
    Ensures n (do
      let rest ← many (when? (accept (.word word)) (k.operation level.next))
      return some (.boolean op (left :: rest) (← spanFrom start))) s (Extends n min s) := by
  have first := (joins.fits _ _ found).resolve_left nofun
  refine (words_ensures (bounded.operation n limited _) found).bind ?_
  rintro rest t - ⟨all, ended, less⟩
  refine finish_ensures less fun span => .of_ended wide ?_ ended
  rw [← height_next found]
  exact Expr.shallow_of_held rfl (forall_mem_expr.2 (List.forall_mem_cons.2 ⟨first, all⟩))

/-- Comparisons in a row are one node. -/
theorem comparisons_extend {min : Level} {start : Pos} {left : Expr} {s : Stream}
    (wide : min.rank ≤ Level.compare.rank) (joins : Joins n min left s)
    (found : Joint.ofKinds? s.current.kind s.second.kind = some (.compare, .compare)) :
    Ensures n (do
      let rest ← many (comparison k)
      return some (.compare left rest (← spanFrom start))) s (Extends n min s) := by
  have first := (joins.fits _ _ found).resolve_left nofun
  refine (comparisons_ensures (bounded.operation n limited _) found).bind ?_
  rintro rest t - ⟨all, ended, less⟩
  refine finish_ensures less fun span => .of_ended wide (Expr.shallow_of_held rfl ?_) ended
  exact List.forall_mem_cons.2 ⟨first, List.forall_mem_map.2 (List.forall_mem_map.2 all)⟩

/-- A binary operator leaves what is to the left of it as deep as it is: that is a loose part. -/
theorem binary_extend {min level : Level} {start : Pos} {left : Expr} {s : Stream}
    {op : BinaryOperator} (wide : min.rank ≤ level.rank) (joins : Joins n min left s)
    (present : s.current.kind.isEof = false) (known : op.level? = some level)
    (found : Joint.ofKinds? s.current.kind s.second.kind = some (level, .binary op)) :
    Ensures n (do
      let _ ← take
      let right ← k.operation level.next
      return some (.binary left op right (← spanFrom start))) s (Extends n min s) := by
  refine Ensures.bind .take fun _ t _ less => ?_
  refine (operation_yields limited bounded level.next t).bind fun right u le holds => ?_
  refine finish_ensures (Nat.lt_of_le_of_lt le (less present)) fun span => .of_binary wide known ?_
  rw [← height_next found]
  have capped : height min ≤ 15 := Nat.sub_le _ _
  have further := joins.shallow.mono (c := 20 * n.room + height level.next + 20) (by omega)
  exact Expr.shallow_iff.2 ⟨List.forall_mem_singleton.2 holds, List.forall_mem_singleton.2 further⟩

/-- One more operator keeps what has been read joined to what comes. -/
theorem extend_ensures {min : Level} {start : Pos} {left : Expr} {s : Stream}
    (joins : Joins n min left s) :
    Ensures n (extend k min start left) s fun e? t =>
      (e? = none → left.Shallow (20 * n.room + height min) ∧ Ended min t) ∧
      ∀ e ∈ e?, Joins n min e t ∧ t.size < s.size := by
  unfold extend
  refine Ensures.bind .look ?_
  rintro _ s - ⟨rfl, rfl⟩
  refine Ensures.bind .lookAhead ?_
  rintro _ s - ⟨rfl, rfl⟩
  split
  · rename_i none
    refine .pure ⟨fun _ => ⟨joins.shallow, fun level joint found => ?_⟩, forall_mem_none⟩
    cases none.symm.trans found
  · rename_i level joint found
    split
    · rename_i loose
      refine .pure ⟨fun _ => ⟨joins.shallow, fun level' joint' found' => ?_⟩, forall_mem_none⟩
      cases found.symm.trans found'
      exact loose
    · rename_i tight
      have wide : min.rank ≤ level.rank := Nat.le_of_not_lt tight
      suffices one : Ensures n _ s (Extends n min s) by
        refine one.mono ?_
        rintro _ t ⟨e, rfl, joins', less⟩
        exact ⟨nofun, forall_mem_some ⟨joins', less⟩⟩
      split
      · exact words_extend limited bounded wide joins found
      · obtain ⟨-, -, ⟨⟩⟩ | ⟨-, -, ⟨⟩⟩ | ⟨-, rfl, -⟩ | ⟨-, op, -, ⟨⟩⟩ := Joint.ofKinds?_cases found
        exact comparisons_extend limited bounded wide joins found
      · obtain ⟨-, -, ⟨⟩⟩ | ⟨-, -, ⟨⟩⟩ | ⟨-, -, ⟨⟩⟩ | ⟨present, op, known, ⟨⟩⟩ :=
          Joint.ofKinds?_cases found
        exact binary_extend limited bounded wide joins present known found

theorem operation_ensures {min : Level} {s : Stream} :
    Ensures n (operation k min) s fun e t =>
      e.Shallow (20 * n.room + height min) ∧ Ended min t := by
  unfold operation
  refine Ensures.bind .here ?_
  rintro start s - rfl
  refine (firstOperand_yields limited bounded s).bind fun e t _ holds => ?_
  have low (level : Level) : e.Shallow (20 * n.room + height level) :=
    holds.mono (Nat.add_le_add_left (by cases level <;> decide) _)
  refine Ensures.loop (I := Joins n min) (fun left u joins => ?_)
    ⟨low min, fun level joint _ => .inr (low level.next)⟩
  refine (extend_ensures limited bounded joins).mono fun e? v one => ?_
  exact ⟨one.1, fun e found => ⟨(one.2 e found).1, .inl (one.2 e found).2⟩⟩

/-! ### Whole expressions -/

theorem lambda_yields : Yields n (lambda k) (Expr.Shallow (20 * n.room + 1)) := by
  unfold lambda
  refine .skip .here fun start => .skip .expect fun _ => ?_
  refine (parameters_yields limited bounded).bind fun params holds => .skip .expect fun _ => ?_
  refine (wholeExpression_yields limited bounded).bind fun body holds' =>
    .skip .spanFrom fun span => ?_
  refine .pure (Expr.shallow_of_held rfl (List.forall_mem_cons.2 ⟨holds, ?_⟩))
  exact List.forall_mem_singleton.2 holds'

/-- A whole expression takes a level for what is in it. -/
theorem expression_yields : Yields n (expression k) (Expr.Shallow (20 * n.room - 4)) := by
  unfold expression
  refine .nested limited fun m limited' level => ?_
  have inner : 20 * m.room + 16 = 20 * n.room - 4 := by omega
  have operation : Yields m (operation k .or) (Expr.Shallow (20 * m.room + 15)) :=
    fun s => (operation_ensures limited' bounded).mono fun e t both => both.1
  rw [← inner]
  refine .skip .isNext fun isLambda => .ite ?_ (.skip .here fun start => ?_)
  · exact (lambda_yields limited' bounded).mono fun e holds => holds.mono (by omega)
  refine operation.bind fun body holds => .skip .accept fun isConditional => .ite ?_ ?_
  · refine operation.bind fun test holds' => .skip .expect fun _ => ?_
    refine (wholeExpression_yields limited' bounded).bind fun other holds'' =>
      .skip .spanFrom fun span => ?_
    refine .pure (Expr.shallow_of_held (b := 20 * m.room + 15) rfl ?_)
    simp only [Expr.held, Expr.parts, List.forall_mem_cons]
    exact ⟨holds', holds, holds''.mono (by omega), List.forall_mem_nil _⟩
  · exact .pure (holds.mono (by omega))

end

/-- Each round of the circle of rules keeps the bounds. -/
theorem within_bounded {hole : Nat → String → Except Error Expr}
    (holes : ∀ room source e, 0 < room → hole room source = .ok e → e.Shallow (20 * room - 2))
    (size : Nat) : Bounded
      ⟨expressionWithin hole size, operationWithin hole size, factorWithin hole size, hole⟩ := by
  induction size with
  | zero =>
    refine ⟨fun n _ => ?_, fun n _ min s => ?_, fun n _ => ?_, holes⟩
    · simp only [expressionWithin]
      exact .unexpected
    · simp only [operationWithin]
      exact fun e t done => nomatch done
    · simp only [factorWithin]
      exact .unexpected
  | succ size ih =>
    refine ⟨fun n limited => ?_, fun n limited min s => ?_, fun n limited => ?_, holes⟩
    · simp only [expressionWithin]
      exact expression_yields limited ih
    · simp only [operationWithin]
      exact operation_ensures limited ih
    · simp only [factorWithin]
      exact factor_yields limited ih

/-- The expression of a hole, whatever holes it has. -/
theorem readHole_shallow {levels : Nat} : ∀ {room : Nat} {source : String} {e : Expr}, 0 < room →
    readHole levels room source = .ok e → e.Shallow (20 * room - 2) := by
  induction levels with
  | zero => exact fun _ found => nomatch found
  | succ levels ih =>
    intro room source e positive found
    rw [readHole] at found
    obtain ⟨tokens, -, found⟩ := ok_of_bind found
    obtain ⟨⟨value, t⟩, done, ⟨⟩⟩ := ok_of_bind found
    have bounded : Bounded (knot (readHole levels) tokens.length) :=
      within_bounded (fun room source e => ih) _
    refine (Yields.bind (expressions_tight (n := ⟨room, 0⟩) positive bounded)
      (fun value holds => ?_) _ _ _ done).2
    have shallow : value.Shallow (20 * room - 2) := holds.mono (by simp only [Nesting.room]; omega)
    refine .skip .look fun kind => ?_
    split
    · exact .pure shallow
    · exact .pure shallow
    · exact .unexpected

theorem knot_bounded (levels size : Nat) : Bounded (knot (readHole levels) size) :=
  within_bounded (fun _ _ _ => readHole_shallow) _

end Grammar

end ScoreScript.Script
