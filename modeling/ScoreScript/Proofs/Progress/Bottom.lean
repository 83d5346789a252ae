import ScoreScript.Proofs.Grammar.Statement
import ScoreScript.Proofs.Holes.Rule
import ScoreScript.Proofs.Parallel.Statement
import ScoreScript.Proofs.Progress.Source

/-!
Neither room nor levels run out. No rule gives a token back (`Rule.Forward`), so the holes that a
rule meets are those of the tokens it is given. Rules that read short holes in the same way do the
same on tokens with short holes (`Rule.SameBelow`). As a hole is shorter than the text around it and
a rule reads a token before it comes back to another, it does not matter what would be done where
levels or room run out (`Module.ofTokens_eq_bottom`).
-/

namespace ScoreScript.Script

namespace Rule

variable {α β : Type} {n : Nesting} {s : Stream} {size : Nat}

/-- What the rule leaves is the end of what there was. -/
def Forward (rule : Rule α) : Prop :=
  ∀ n s a t, rule n s = .ok (a, t) → t.rest <:+ s.rest

namespace Forward

variable {rule : Rule α}

/-- A step that only looks. -/
theorem of_quiet (quiet : ∀ n s a t, rule n s = .ok (a, t) → t = s) : Forward rule :=
  fun n s a t done => quiet n s a t done ▸ List.suffix_refl _

theorem bind {next : α → Rule β} (h : Forward rule) (h' : ∀ a, Forward (next a)) :
    Forward (rule >>= next) := by
  intro n s b u done
  obtain ⟨⟨a, t⟩, first, second⟩ := ok_of_bind (show rule n s >>= _ = .ok (b, u) from done)
  exact (h' a n t b u second).trans (h n s a t first)

theorem take : Forward take := by
  rintro n s _ _ ⟨⟩
  unfold Stream.advance
  split
  · exact List.suffix_refl _
  · exact List.tail_suffix _

theorem nested (h : Forward rule) : Forward (nested rule) := by
  intro n s a t done
  unfold Rule.nested at done
  split at done
  · exact h _ s a t done
  · cases done

theorem lift {result : Except Error α} : Forward (lift result) := by
  intro n s a t done
  obtain ⟨_, -, ⟨⟩⟩ := ok_of_map (show result.map (·, s) = .ok (a, t) from done)
  exact List.suffix_refl _

theorem loop {round : α → Rule (Option α)} {a : α} (h : ∀ a, Forward (round a)) :
    Forward (loop round a) := by
  intro n s
  induction left : s.size using Nat.strongRecOn generalizing a s with
  | ind m ih =>
    intro c u done
    rw [Rule.loop] at done
    split at done
    · cases done
    · rename_i first
      cases done
      exact h _ _ _ _ _ first
    · rename_i b after first
      have behind := h _ _ _ _ _ first
      split at done
      · rename_i less
        exact (ih after.size (left ▸ less) after rfl c u done).trans behind
      · cases done
        exact behind

/-- What is put together from rules that give nothing back gives nothing back. -/
theorem of_parallel {rule rule' : Rule α}
    (h : Parallel (fun _ rule _ => Forward rule) rule rule') : Forward rule := by
  induction h with
  | given h => exact h
  | bind _ _ ih ih' => exact ih.bind ih'
  | take => exact .take
  | nested _ ih => exact ih.nested
  | lift => exact .lift
  | loop _ ih => exact .loop ih
  | fail | unexpected => exact fun _ _ _ _ failed => nomatch failed
  | _ => exact .of_quiet fun _ _ _ _ done => by cases done; rfl

/-- A rule that is put together from such rules is parallel to itself. -/
theorem of_self (h : Parallel (fun _ rule _ => Forward rule) rule rule) : Forward rule :=
  of_parallel h

end Forward

/-- No hole of the tokens is as long as `size`. -/
def HolesBelow (size : Nat) (s : Stream) : Prop :=
  ∀ h ∈ holesIn s.rest, (utf8 h.source).length < size

theorem HolesBelow.suffix {t : Stream} (short : HolesBelow size s) (behind : t.rest <:+ s.rest) :
    HolesBelow size t := by
  obtain ⟨used, split⟩ := behind
  intro h inside
  refine short h ?_
  rw [← split, holesIn_append]
  exact List.mem_append_right _ inside

/-- On tokens with short holes both rules read the same, and the first gives none back. -/
structure SameBelow (size : Nat) (rule rule' : Rule α) : Prop where
  forward : Forward rule
  same : ∀ n s, HolesBelow size s → rule n s = rule' n s

namespace SameBelow

variable {rule rule' : Rule α}

theorem refl (h : Forward rule) : SameBelow size rule rule :=
  ⟨h, fun _ _ _ => rfl⟩

theorem bind {next next' : α → Rule β} (h : SameBelow size rule rule')
    (h' : ∀ a, SameBelow size (next a) (next' a)) :
    SameBelow size (rule >>= next) (rule' >>= next') := by
  refine ⟨h.forward.bind fun a => (h' a).forward, fun n s short => ?_⟩
  change rule n s >>= (fun (a, t) => next a n t) = rule' n s >>= fun (a, t) => next' a n t
  rw [← h.same n s short]
  cases first : rule n s with
  | error e => rfl
  | ok result => exact (h' _).same n _ (short.suffix (h.forward _ _ _ _ first))

theorem nested (h : SameBelow size rule rule') :
    SameBelow size (nested rule) (Rule.nested rule') := by
  refine ⟨h.forward.nested, fun n s short => ?_⟩
  unfold Rule.nested
  rw [h.same _ s short]

theorem loop {round round' : α → Rule (Option α)} {a : α}
    (h : ∀ a, SameBelow size (round a) (round' a)) :
    SameBelow size (loop round a) (Rule.loop round' a) := by
  refine ⟨.loop fun a => (h a).forward, fun n s short => ?_⟩
  induction left : s.size using Nat.strongRecOn generalizing a s with
  | ind m ih =>
    rw [Rule.loop, Rule.loop, ← (h a).same n s short]
    cases first : round a n s with
    | error e => rfl
    | ok result =>
      obtain ⟨b?, after⟩ := result
      cases b? with
      | none => rfl
      | some b =>
        dsimp only
        split
        · rename_i less
          exact ih after.size (left ▸ less) after
            (short.suffix ((h a).forward _ _ _ _ first)) rfl
        · rfl

/-- What is put together from rules that read short holes alike does so too. -/
theorem of_parallel (h : Parallel (fun _ rule rule' => SameBelow size rule rule') rule rule') :
    SameBelow size rule rule' := by
  induction h with
  | given h => exact h
  | bind _ _ ih ih' => exact ih.bind ih'
  | take => exact .refl .take
  | nested _ ih => exact ih.nested
  | lift => exact .refl .lift
  | loop _ ih => exact .loop ih
  | fail | unexpected => exact .refl fun _ _ _ _ failed => nomatch failed
  | _ => exact .refl (.of_quiet fun _ _ _ _ done => by cases done; rfl)

end SameBelow

end Rule

namespace Grammar

open Rule

variable {k k' : Knot} {size : Nat} {span : Span}

/-! ### String literals -/

/-- Both knots read the expression of a hole in the same way. -/
def SameHole (k k' : Knot) (h : Hole) : Prop :=
  ∀ room, k.hole room h.source = k'.hole room h.source

theorem holeValue_same {source : String}
    (same : ∀ room, k.hole room source = k'.hole room source) :
    holeValue k source span = holeValue k' source span := by
  funext n s
  unfold holeValue
  dsimp only
  rw [same]

mutual

theorem formatPiece_same : (piece : FormatPiece) → (∀ h ∈ piece.holes, SameHole k k' h) →
    formatPiece k span piece = formatPiece k' span piece
  | .literal text, _ => by rw [formatPiece, formatPiece]
  | .hole source conversion none, same => by
    rw [FormatPiece.holes, List.forall_mem_singleton] at same
    rw [formatPiece, formatPiece, holeValue_same same]
  | .hole source conversion (some pieces), same => by
    rw [FormatPiece.holes, List.forall_mem_cons] at same
    rw [formatPiece, formatPiece, holeValue_same same.1]
    simp only [formatPieces_same pieces same.2]

theorem formatPieces_same : (pieces : List FormatPiece) →
    (∀ h ∈ pieceHoles pieces, SameHole k k' h) →
    formatPieces k span pieces = formatPieces k' span pieces
  | [], _ => by rw [formatPieces, formatPieces]
  | piece :: rest, same => by
    rw [pieceHoles, List.forall_mem_append] at same
    rw [formatPieces, formatPieces, formatPiece_same piece same.1, formatPieces_same rest same.2]

end

theorem joinPieces_same {pieces : List FormatPiece}
    (same : ∀ h ∈ pieceHoles pieces, SameHole k k' h) (j : Joining) :
    joinPieces k span j pieces = joinPieces k' span j pieces := by
  induction pieces generalizing j with
  | nil => rfl
  | cons piece rest ih =>
    rw [pieceHoles, List.forall_mem_append] at same
    cases piece with
    | literal text => exact ih same.2 _
    | hole source conversion spec =>
      change (formatPiece k span _ >>= fun part => joinPieces k span _ rest) = _
      rw [formatPiece_same _ same.1]
      exact congrArg _ (funext fun part => ih same.2 _)

theorem joinLiteral_same {value : String} {kind : StringKind}
    (same : ∀ h ∈ (TokenKind.string value kind).holes, SameHole k k' h) (j : Joining) :
    joinLiteral k j value kind span = joinLiteral k' j value kind span := by
  unfold joinLiteral
  split
  · rfl
  · rfl
  · rfl
  · rw [TokenKind.holes] at same
    split
    · rename_i read
      rw [read] at same
      exact joinPieces_same same _
    · rfl

theorem holeValue_forward (k : Knot) (source : String) (span : Span) :
    Forward (holeValue k source span) := by
  intro n s e t done
  unfold holeValue at done
  dsimp only at done
  split at done
  · cases done
    exact List.suffix_refl _
  · cases done

/-- String literals with short holes are read in the same way if short holes are. -/
theorem strings_same (same : ∀ h : Hole, (utf8 h.source).length < size → SameHole k k' h) :
    SameBelow size (strings k) (strings k') := by
  have given (source : String) (span : Span) : Rule.Parallel (fun _ rule _ => Forward rule)
      (holeValue k source span) (holeValue k source span) :=
    .given (holeValue_forward k source span)
  refine .bind (.refl (.of_quiet fun _ _ _ _ done => by cases done; rfl)) fun start => .bind
    (.loop fun j => ⟨?_, fun n s short => ?_⟩) fun _ => .refl ?_
  · refine .of_self (.bind .look fun kind => ?_)
    split
    · exact .bind .take fun _ => .map (joinLiteral_parallel given)
    · exact .pure
  · cases found : s.current.kind with
    | string value kind =>
      have inside : ∀ h ∈ (TokenKind.string value kind).holes, SameHole k k' h := by
        intro h member
        refine same h (short h ?_)
        rw [s.rest_eq_cons (by rw [found]; rfl), holesIn_cons, found]
        exact List.mem_append_left _ member
      simp only [Rule.run_bind, look, Except.bind, found, joinLiteral_same inside]
    | _ => simp only [Rule.run_bind, look, Except.bind, found]
  · exact .of_self (.bind .spanFrom fun _ => .pure)

/-! ### The expression of a hole -/

/-- The expression of a hole, and the end of its text. -/
def holeExpression (k : Knot) : Rule Expr := do
  let value ← expressions k
  match ← look with
  | .newline | .eof => return value
  | _ => unexpected "'\x7d'"

theorem readHole_succ (levels maxDepth : Nat) (source : String) :
    readHole (levels + 1) maxDepth source = do
      let tokens ← Script.tokens (utf8 (trim source))
      let (value, _) ← holeExpression (knot (readHole levels) tokens.length) ⟨maxDepth, 0⟩
        (.ofTokens tokens)
      return value :=
  rfl

theorem holeExpression_parallel {Given : (α : Type) → Rule α → Rule α → Prop}
    (h : Knot.Parallel Given k k') :
    Rule.Parallel Given (holeExpression k) (holeExpression k') := by
  refine (expressions_parallel h).bind fun value => .bind .look fun kind => ?_
  split
  · exact .pure
  · exact .pure
  · exact .unexpected

theorem holeExpression_alike {m : Nat} (h : Knot.Alike m k k') :
    Rule.Alike m (holeExpression k) (holeExpression k') := by
  refine (expressions_alike h).bind fun value => .after (fun _ => .look) fun kind => ?_
  split
  · exact .pure
  · exact .pure
  · exact .refl fun _ => .unexpected

/-- Knots that differ in how they read holes read the same if they read short holes in the same
way. -/
theorem knot_same {hole hole' : Nat → String → Except Error Expr}
    (same : ∀ h : Hole, (utf8 h.source).length < size →
      ∀ room, hole room h.source = hole' room h.source) (room : Nat) :
    Knot.Parallel (fun _ => SameBelow size) (knot hole room) (knot hole' room) := by
  refine rounds_parallel_of_strings (fun k k' reads reads' => .given (strings_same ?_)) _
  intro h short maxDepth
  rw [reads, reads']
  exact same h short maxDepth

end Grammar

/-! ### Where room runs out -/

/-- What is done where there is no room left to come back to a rule, and no level for a hole. -/
structure Bottom where
  knot : Knot
  blocks : Blocks

namespace Bottom

open Rule

variable (bottom : Bottom)

/-- The rules of expressions after so many rounds of coming back to them. -/
def rounds (hole : Nat → String → Except Error Expr) : (size : Nat) → Knot
  | 0 => { bottom.knot with hole }
  | size + 1 =>
    let k := rounds hole size
    ⟨Grammar.expression k, Grammar.operation k, Grammar.factor k, hole⟩

/-- The rules of statements after so many rounds. -/
def blocksWithin (k : Knot) : (size : Nat) → Blocks
  | 0 => bottom.blocks
  | size + 1 =>
    let b := blocksWithin k size
    ⟨Grammar.statement b k, Grammar.ifStatement b k⟩

def readHole : (levels : Nat) → (maxDepth : Nat) → String → Except Error Expr
  | 0, maxDepth, source => bottom.knot.hole maxDepth source
  | levels + 1, maxDepth, source => do
    let tokens ← Script.tokens (utf8 (trim source))
    let k := bottom.rounds (readHole levels) (tokens.length + 1)
    let (value, _) ← Grammar.holeExpression k ⟨maxDepth, 0⟩ (.ofTokens tokens)
    return value

def scriptLine (k : Knot) (size : Nat) : Rule (Option (List Stmt)) := do
  match ← look with
  | .eof => return none
  | .newline =>
    let _ ← take
    return some []
  | _ => some <$> (bottom.blocksWithin k (size + 1)).statement

def script (k : Knot) (size : Nat) : Rule Module := do
  return ⟨(← many (bottom.scriptLine k size)).flatten⟩

/-- The tree of a sequence of tokens, with what is done at the bottom in place of an error. -/
def ofTokens (maxDepth levels : Nat) (tokens : List (Token TokenKind)) : Except Error Module := do
  let k := bottom.rounds (bottom.readHole levels) (tokens.length + 1)
  let (m, _) ← bottom.script k tokens.length ⟨maxDepth, 0⟩ (.ofTokens tokens)
  return m

theorem rounds_alike {hole : Nat → String → Except Error Expr} {m size size' : Nat}
    (room : m ≤ size) (room' : m ≤ size') :
    Knot.Alike m (Grammar.rounds hole size) (bottom.rounds hole size') := by
  induction m generalizing size size' with
  | zero =>
    refine ⟨fun _ _ short => absurd short (Nat.not_lt_zero _),
      fun _ _ _ short => absurd short (Nat.not_lt_zero _),
      fun _ _ short => absurd short (Nat.not_lt_zero _), ?_⟩
    cases size' <;> rfl
  | succ m ih =>
    obtain ⟨p, rfl⟩ := Nat.exists_eq_add_of_lt room
    obtain ⟨p', rfl⟩ := Nat.exists_eq_add_of_lt room'
    have h := ih (Nat.le_add_right m p) (Nat.le_add_right m p')
    refine ⟨?_, fun min => ?_, ?_, rfl⟩
    · simp only [Grammar.rounds, Grammar.expressionWithin]
      exact Grammar.expression_alike h
    · simp only [Grammar.rounds, Grammar.operationWithin]
      exact Grammar.operation_alike h
    · simp only [Grammar.rounds, Grammar.factorWithin]
      exact Grammar.factor_alike h

theorem blocks_alike {k k' : Knot} {m size size' : Nat} (h : Knot.Alike m k k') (room : m ≤ size)
    (room' : m ≤ size') :
    Blocks.Alike m ⟨Grammar.statementWithin k size, Grammar.branchWithin k size⟩
      (bottom.blocksWithin k' size') := by
  induction m generalizing size size' with
  | zero =>
    exact ⟨fun _ _ short => absurd short (Nat.not_lt_zero _),
      fun _ _ short => absurd short (Nat.not_lt_zero _)⟩
  | succ m ih =>
    obtain ⟨p, rfl⟩ := Nat.exists_eq_add_of_lt room
    obtain ⟨p', rfl⟩ := Nat.exists_eq_add_of_lt room'
    have blocks := ih (h.mono (Nat.le_succ m)) (Nat.le_add_right m p) (Nat.le_add_right m p')
    refine ⟨?_, ?_⟩
    · simp only [Grammar.statementWithin]
      exact Grammar.statement_alike h blocks
    · simp only [Grammar.branchWithin]
      exact Grammar.ifStatement_alike h blocks

theorem script_alike {k k' : Knot} {size : Nat} (h : Knot.Alike (size + 1) k k') :
    Rule.Alike (size + 1) (Grammar.script k size) (bottom.script k' size) := by
  have blocks := bottom.blocks_alike h (Nat.le_refl _) (Nat.le_refl _)
  have line : Rule.Alike (size + 1) (Grammar.scriptLine k size) (bottom.scriptLine k' size) := by
    refine .after (fun _ => .look) fun kind => ?_
    cases kind
    case eof => exact .pure
    case newline => exact .after (fun _ => .take) fun _ => .pure
    all_goals exact .map blocks.statement
  exact (Alike.many line).bind fun _ => .pure

/-- With more levels than a hole has bytes the bottom is not reached. -/
theorem readHole_eq {levels : Nat} {source : String} (enough : (utf8 source).length < levels)
    (maxDepth : Nat) :
    Grammar.readHole levels maxDepth source = bottom.readHole levels maxDepth source := by
  induction levels generalizing source maxDepth with
  | zero => exact absurd enough (Nat.not_lt_zero _)
  | succ levels ih =>
    have inner := length_utf8_trim_le source
    rw [Grammar.readHole_succ, readHole]
    cases lexed : Script.tokens (utf8 (trim source)) with
    | error e => exact Eq.refl (Except.error e)
    | ok tokens =>
      have short (h : Hole) (shorter : (utf8 h.source).length < (utf8 (trim source)).length) :
          ∀ room, Grammar.readHole levels room h.source = bottom.readHole levels room h.source :=
        ih (by omega)
      have holes := SameBelow.of_parallel
        (Grammar.holeExpression_parallel (Grammar.knot_same short tokens.length))
      have rounds : Knot.Alike (tokens.length + 1)
          (Grammar.knot (bottom.readHole levels) tokens.length)
          (bottom.rounds (bottom.readHole levels) (tokens.length + 1)) :=
        bottom.rounds_alike (Nat.le_refl _) (Nat.le_refl _)
      have same := (holes.same ⟨maxDepth, 0⟩ (.ofTokens tokens) (length_source_lt lexed)).trans
        (Grammar.holeExpression_alike rounds _ _ (Nat.lt_succ_self _)).same
      exact congrArg (· >>= fun result => Except.ok result.1) same

end Bottom

/-- With as many levels as there are bytes, and room for as many returns as there are tokens,
neither runs out. -/
theorem Module.ofTokens_eq_bottom (bottom : Bottom) {bytes : List UInt8}
    {tokens : List (Token TokenKind)} (lexed : Script.tokens bytes = .ok tokens) (maxDepth : Nat) :
    Module.ofTokens maxDepth bytes.length tokens =
      bottom.ofTokens maxDepth bytes.length tokens := by
  have holes : Rule.SameBelow bytes.length
      (Grammar.script (Grammar.knot (Grammar.readHole bytes.length) tokens.length) tokens.length)
      (Grammar.script (Grammar.knot (bottom.readHole bytes.length) tokens.length) tokens.length) :=
    .of_parallel (Grammar.script_parallel (Grammar.knot_same
      (fun h short room => bottom.readHole_eq short room) _))
  have rounds : Knot.Alike (tokens.length + 1)
      (Grammar.knot (bottom.readHole bytes.length) tokens.length)
      (bottom.rounds (bottom.readHole bytes.length) (tokens.length + 1)) :=
    bottom.rounds_alike (Nat.le_refl _) (Nat.le_refl _)
  have same := (holes.same ⟨maxDepth, 0⟩ (.ofTokens tokens) (length_source_lt lexed)).trans
    (bottom.script_alike rounds _ _ (Nat.lt_succ_self _)).same
  exact congrArg (· >>= fun result => Except.ok result.1) same

end ScoreScript.Script
