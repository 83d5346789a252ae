import ScoreScript.Proofs.Grammar.Parts
import ScoreScript.Proofs.Nesting.Expression

/-!
Room for tokens. A rule of expressions reads a token before it comes back to another, so on streams
of at most `m` tokens it does the same whenever the rules that it comes back to do so on streams of
fewer than `m`. Hence a knot that has room for a stream does the same as any that has more
(`Grammar.rounds_alike`).
-/

namespace ScoreScript.Script

open Rule

namespace Rule

variable {α : Type} {n : Nesting} {s : Stream} {m : Nat}

theorem Ensures.expect {mark : Mark} :
    Ensures n (expect mark) s fun _ t => t.size < s.size := by
  refine Ensures.bind .accept ?_
  rintro _ t - (⟨rfl, -, less⟩ | ⟨rfl, -, -⟩)
  · exact .pure less
  · exact fun _ _ failed => nomatch failed

namespace Alike

variable {rule rule' other other' : Rule α}

/-- Once a token has been taken there is one less to read. -/
theorem taken {next next' : Token TokenKind → Rule α}
    (h : ∀ token, Alike m (next token) (next' token))
    (short : s.size < m + 1) (present : s.current.kind.isEof = false) :
    Matches n (take >>= next) (take >>= next') s fun _ _ => True :=
  .bind (.refl .take) fun token t _ less =>
    h token n t (Nat.lt_of_lt_of_le (less present) (Nat.le_of_lt_succ short))

theorem accepted {mark : Mark} (h : Alike m rule rule') (h' : Alike (m + 1) other other') :
    Alike (m + 1) (accept mark >>= fun taken => if taken then rule else other)
      (accept mark >>= fun taken => if taken then rule' else other') := by
  intro n s short
  refine .bind (.refl .accept) ?_
  rintro _ t - (⟨rfl, -, less⟩ | ⟨rfl, -, rfl⟩)
  · exact h n t (Nat.lt_of_lt_of_le less (Nat.le_of_lt_succ short))
  · exact h' n t short

theorem whenAccepted {mark : Mark} (h : Alike m rule rule') :
    Alike (m + 1) (Rule.when? (accept mark) rule) (Rule.when? (accept mark) rule') :=
  accepted h.map pure

/-- What is read behind a mark leaves less than there was. -/
theorem behindMark_matches {mark : Mark} (h : Alike m rule rule') (short : s.size < m + 1) :
    Matches n (expect mark >>= fun _ => rule) (expect mark >>= fun _ => rule') s
      fun _ t => t.size < s.size := by
  refine .bind (.refl .expect) fun _ t _ less => ?_
  obtain ⟨same, ensures⟩ := h n t (Nat.lt_of_lt_of_le less (Nat.le_of_lt_succ short))
  refine ⟨same, fun a u done => ?_⟩
  have le := (ensures a u done).1
  exact ⟨le, Nat.lt_of_le_of_lt le less⟩

theorem expected {mark : Mark} (h : Alike m rule rule') :
    Alike (m + 1) (expect mark >>= fun _ => rule) (expect mark >>= fun _ => rule') :=
  fun _ _ short =>
    have both := h.behindMark_matches short
    ⟨both.same, both.ensures.mono fun _ _ _ => trivial⟩

end Alike

end Rule

namespace Grammar

variable {m : Nat} {k k' : Knot}

/-! ### String literals -/

theorem holeValue_alike (same : k.hole = k'.hole) {source : String} {span : Span} :
    Rule.Alike m (holeValue k source span) (holeValue k' source span) := by
  intro n s short
  constructor
  · unfold holeValue
    rw [same]
  · intro e t done
    unfold holeValue at done
    dsimp only at done
    split at done
    · cases done
      exact ⟨Nat.le_refl _, trivial⟩
    · cases done

mutual

theorem formatPiece_alike (same : k.hole = k'.hole) {span : Span} : (piece : FormatPiece) →
    Rule.Alike m (formatPiece k span piece) (formatPiece k' span piece)
  | .literal text => by
    rw [formatPiece, formatPiece]
    exact .pure
  | .hole source conversion spec => by
    rw [formatPiece, formatPiece]
    refine .nested ((holeValue_alike same).bind fun value => ?_)
    cases spec with
    | none => exact .pure
    | some pieces => exact (formatPieces_alike same pieces).bind fun _ => .pure

theorem formatPieces_alike (same : k.hole = k'.hole) {span : Span} : (pieces : List FormatPiece) →
    Rule.Alike m (formatPieces k span pieces) (formatPieces k' span pieces)
  | [] => by
    rw [formatPieces, formatPieces]
    exact .pure
  | piece :: rest => by
    rw [formatPieces, formatPieces]
    exact (formatPiece_alike same piece).bind fun _ =>
      (formatPieces_alike same rest).bind fun _ => .pure

end

section

variable (same : k.hole = k'.hole)
include same

theorem joinPieces_alike {span : Span} {pieces : List FormatPiece} : ∀ {j : Joining},
    Rule.Alike m (joinPieces k span j pieces) (joinPieces k' span j pieces) := by
  induction pieces with
  | nil =>
    intro j
    rw [joinPieces, joinPieces]
    exact .pure
  | cons piece rest ih =>
    intro j
    cases piece with
    | literal text =>
      rw [joinPieces, joinPieces]
      exact ih
    | hole source conversion spec =>
      rw [joinPieces, joinPieces]
      · exact (formatPiece_alike same _).bind fun _ => ih
      all_goals exact nofun

theorem joinLiteral_alike {j : Joining} {value : String} {kind : StringKind} {span : Span} :
    Rule.Alike m (joinLiteral k j value kind span) (joinLiteral k' j value kind span) := by
  unfold joinLiteral
  split
  · exact .ite .fail .pure
  · exact .fail
  · exact .pure
  · split
    · exact joinPieces_alike same
    · exact .fail

theorem strings_alike : Rule.Alike m (strings k) (strings k') := by
  refine .after (fun _ => .here) fun start => .bind (.loop fun j => ?_) fun _ =>
    .after (fun _ => .spanFrom) fun _ => .pure
  refine .after (fun _ => .look) fun kind => ?_
  split
  · exact .after (fun _ => .take) fun _ => .map (joinLiteral_alike same)
  · exact .pure

end

/-! ### Operands -/

section

variable (h : Knot.Alike m k k')
include h

theorem atom_alike : Rule.Alike (m + 1) (atom k) (atom k') := by
  intro n s short
  refine .bind (.refl .here) ?_
  rintro start s - rfl
  refine .bind (.refl .look) ?_
  rintro _ s - ⟨rfl, rfl⟩
  have present {sign : Operator} (kind : s.current.kind = .op sign) :
      s.current.kind.isEof = false := by
    rw [kind]
    rfl
  split
  · exact .bind (.refl (Yields.take s)) fun _ _ _ _ => .pure trivial
  · exact strings_alike h.hole n s short
  · rename_i kind
    exact Alike.taken (fun _ => .nested (parenthesized_alike h)) short (present kind)
  · rename_i kind
    exact Alike.taken (fun _ => .nested (listDisplay_alike h)) short (present kind)
  · rename_i kind
    exact Alike.taken (fun _ => .nested (braceDisplay_alike h)) short (present kind)
  · split
    · exact .bind (.refl (Yields.take s)) fun _ _ _ _ => .pure trivial
    · exact .refl (Yields.unexpected s)

theorem postfixed_alike {start : Pos} {owner : Expr} :
    Rule.Alike (m + 1) (postfixed k start owner) (postfixed k' start owner) := by
  refine .accepted ((arguments_alike h).bind fun _ => .after (fun _ => .spanFrom) fun _ => .pure)
    (.accepted ?_ (.accepted ?_ .pure))
  · exact (slices_alike h).bind fun _ => .after (fun _ => .expect) fun _ =>
      .after (fun _ => .spanFrom) fun _ => .pure
  · exact .after (fun _ => .name) fun _ => .after (fun _ => .spanFrom) fun _ => .pure

theorem primary_alike : Rule.Alike (m + 1) (primary k) (primary k') :=
  .after (fun _ => .here) fun _ => (atom_alike h).bind fun _ => .loop fun _ => postfixed_alike h

theorem power_alike : Rule.Alike (m + 1) (power k) (power k') := by
  have raised {start : Pos} (base : Expr) : Rule.Alike (m + 1)
      (do if ← accept (.op .power) then
            let exponent ← nested k.factor
            return .binary base .pow exponent (← spanFrom start)
          else return base)
      (do if ← accept (.op .power) then
            let exponent ← nested k'.factor
            return .binary base .pow exponent (← spanFrom start)
          else return base) :=
    .accepted ((Alike.nested h.factor).bind fun _ => .after (fun _ => .spanFrom) fun _ => .pure)
      .pure
  refine .after (fun _ => .here) fun start => .after accept_yields fun _ => .ite ?_ ?_
  · exact (primary_alike h).bind fun _ => .after (fun _ => .spanFrom) fun _ => .bind .pure raised
  · exact (primary_alike h).bind raised

theorem factor_alike : Rule.Alike (m + 1) (factor k) (factor k') := by
  intro n s short
  refine .bind (.refl .here) ?_
  rintro start s - rfl
  refine .bind (.refl .look) ?_
  rintro _ s - ⟨rfl, rfl⟩
  split
  · rename_i op sign
    have present : s.current.kind.isEof = false := by
      cases kind : s.current.kind <;> first | rfl | (rw [kind] at sign; cases sign)
    exact Alike.taken (fun _ => (Alike.nested h.factor).bind fun _ =>
      .after (fun _ => .spanFrom) fun _ => .pure) short present
  · exact power_alike h n s short

/-! ### Operations -/

theorem firstOperand_alike {min : Level} :
    Rule.Alike (m + 1) (firstOperand k min) (firstOperand k' min) := by
  have negation {start : Pos} : Rule.Alike m
      (do let operand ← nested (k.operation .not)
          return Expr.unary .not operand (← spanFrom start))
      (do let operand ← nested (k'.operation .not)
          return Expr.unary .not operand (← spanFrom start)) :=
    (Alike.nested (h.operation _)).bind fun _ => .after (fun _ => .spanFrom) fun _ => .pure
  unfold firstOperand
  refine .after (fun _ => .here) fun start => ?_
  split
  · exact .accepted negation (factor_alike h)
  · exact factor_alike h

theorem comparison_alike : Rule.Alike (m + 1) (comparison k) (comparison k') := by
  intro n s short
  refine .bind (.refl .look) ?_
  rintro _ s - ⟨rfl, rfl⟩
  refine .bind (.refl .lookAhead) ?_
  rintro _ s - ⟨rfl, rfl⟩
  split
  · exact .pure trivial
  · rename_i op isLong found
    have present : s.current.kind.isEof = false := by
      cases kind : s.current.kind <;> first | rfl | (rw [kind] at found; cases found)
    refine Alike.taken (fun _ => ?_) short present
    exact .ite (.after (fun _ => .take) fun _ => (h.operation _).bind fun _ => .pure)
      ((h.operation _).bind fun _ => .pure)

theorem extend_alike {min : Level} {start : Pos} {left : Expr} :
    Rule.Alike (m + 1) (extend k min start left) (extend k' min start left) := by
  intro n s short
  refine .bind (.refl .look) ?_
  rintro _ s - ⟨rfl, rfl⟩
  refine .bind (.refl .lookAhead) ?_
  rintro _ s - ⟨rfl, rfl⟩
  split
  · exact .pure trivial
  · rename_i level joint found
    split
    · exact .pure trivial
    · split
      · exact (Alike.many (.whenAccepted (h.operation _))).bind
          (fun _ => .after (fun _ => .spanFrom) fun _ => .pure) n s short
      · exact (Alike.many (comparison_alike h)).bind
          (fun _ => .after (fun _ => .spanFrom) fun _ => .pure) n s short
      · obtain ⟨-, -, ⟨⟩⟩ | ⟨-, -, ⟨⟩⟩ | ⟨-, -, ⟨⟩⟩ | ⟨present, -⟩ := Joint.ofKinds?_cases found
        exact Alike.taken (fun _ => (h.operation _).bind fun _ =>
          .after (fun _ => .spanFrom) fun _ => .pure) short present

theorem operation_alike {min : Level} : Rule.Alike (m + 1) (operation k min) (operation k' min) :=
  .after (fun _ => .here) fun _ => (firstOperand_alike h).bind fun _ => .loop fun _ => extend_alike h

/-! ### Whole expressions -/

theorem lambda_alike : Rule.Alike (m + 1) (lambda k) (lambda k') :=
  .after (fun _ => .here) fun _ => .expected ((parameters_alike h).bind fun _ =>
    .after (fun _ => .expect) fun _ => h.expression.bind fun _ =>
      .after (fun _ => .spanFrom) fun _ => .pure)

theorem expression_alike : Rule.Alike (m + 1) (expression k) (expression k') := by
  refine .nested (.after isNext_yields fun _ => .ite (lambda_alike h)
    (.after (fun _ => .here) fun _ => (operation_alike h).bind fun _ => .accepted ?_ .pure))
  exact ((operation_alike h).mono (Nat.le_succ m)).bind fun _ => .after (fun _ => .expect) fun _ =>
    h.expression.bind fun _ => .after (fun _ => .spanFrom) fun _ => .pure

end

/-! ### Rounds -/

/-- The rules after so many rounds of coming back to them. -/
def rounds (hole : Nat → String → Except Error Expr) (size : Nat) : Knot :=
  ⟨expressionWithin hole size, operationWithin hole size, factorWithin hole size, hole⟩

theorem knot_eq_rounds (hole : Nat → String → Except Error Expr) (size : Nat) :
    knot hole size = rounds hole (size + 1) :=
  rfl

theorem alike_succ {hole : Nat → String → Except Error Expr} {size size' : Nat}
    (h : Knot.Alike m (rounds hole size) (rounds hole size')) :
    Knot.Alike (m + 1) (rounds hole (size + 1)) (rounds hole (size' + 1)) := by
  refine ⟨?_, fun min => ?_, ?_, rfl⟩
  · simp only [rounds, expressionWithin]
    exact expression_alike h
  · simp only [rounds, operationWithin]
    exact operation_alike h
  · simp only [rounds, factorWithin]
    exact factor_alike h

/-- With room for all tokens that are left it does not matter how much there is. -/
theorem rounds_alike (hole : Nat → String → Except Error Expr) {size size' : Nat} (room : m ≤ size)
    (room' : m ≤ size') : Knot.Alike m (rounds hole size) (rounds hole size') := by
  induction m generalizing size size' with
  | zero => exact ⟨nofun, nofun, nofun, rfl⟩
  | succ m ih =>
    obtain ⟨p, rfl⟩ := Nat.exists_eq_add_of_lt room
    obtain ⟨p', rfl⟩ := Nat.exists_eq_add_of_lt room'
    exact alike_succ (ih (Nat.le_add_right m p) (Nat.le_add_right m p'))

/-- No rule gives a token back, with room or without. -/
theorem rounds_quiet (hole : Nat → String → Except Error Expr) (size : Nat) :
    ∀ m, Knot.Alike m (rounds hole size) (rounds hole size) := by
  induction size with
  | zero =>
    refine fun m => ⟨.refl fun n => ?_, fun min => .refl fun n => ?_, .refl fun n => ?_, rfl⟩ <;>
      exact fun s e t failed => nomatch failed
  | succ size ih => exact fun m => (alike_succ (ih m)).mono (Nat.le_succ m)

end Grammar

end ScoreScript.Script
