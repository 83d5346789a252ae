import ScoreScript.Proofs.Grammar.Climbing
import ScoreScript.Proofs.Holes.Advance
import ScoreScript.Proofs.Progress.Production

/-!
Every round of a loop reads a token or is the last one (`Round.consumes`), and what stands for a
statement, an expression or an operand takes a token at least (`Solid.advances`). So a script is
read to its end within as many returns as it has tokens, and each of its statements is at least one
of them (`Module.parsing_progresses`).
-/

namespace ScoreScript.Script

namespace Rule

variable {α β : Type} {n : Nesting} {rule : Rule α}

theorem Forward.yields (h : Forward rule) : Yields n rule fun _ => True := by
  intro s a t done
  rw [s.size_eq, t.size_eq]
  exact ⟨(h n s a t done).length_le, trivial⟩

/-! ### Rounds of loops -/

/-- One more item that a round has found. -/
def collect (round : Rule (Option α)) (items : List α) : Rule (Option (List α)) := do
  return (← round).map (· :: items)

theorem many_eq (round : Rule (Option α)) : many round = do
    let items ← loop (collect round) []
    return items.reverse :=
  rfl

/-- Add an item after a comma, if there are more. -/
def afterComma (isEnd : Rule Bool) (add : α → Rule α) (a : α) : Rule (Option α) := do
  if ← accept (.op .comma) then
    if ← isEnd then return none else some <$> add a
  else return none

theorem addFurther_eq (isEnd : Rule Bool) (add : α → Rule α) (a : α) :
    addFurther isEnd add a = loop (afterComma isEnd add) a :=
  rfl

/-- The rule does not find another one, or takes a token for it. -/
def Consumes (rule : Rule (Option α)) : Prop :=
  ∀ n s, Ensures n rule s fun a? t => a? ≠ none → t.size < s.size

namespace Consumes

theorem look {next : TokenKind → Rule (Option β)}
    (h : ∀ n s, Ensures n (next s.current.kind) s fun a? t => a? ≠ none → t.size < s.size) :
    Consumes (look >>= next) :=
  fun n s => h n s

theorem none : Consumes (Pure.pure Option.none : Rule (Option α)) :=
  fun _ _ => .pure fun some => absurd rfl some

theorem of_advances {rule : Rule (Option α)} (h : Advances rule) : Consumes rule :=
  fun n s => (h n s).mono fun _ _ less _ => less

/-- A mark is read before what is found. -/
theorem accept {mark : Mark} {next : Bool → Rule (Option β)} (h : Forward (next true))
    (h' : Consumes (next false)) : Consumes (accept mark >>= next) := by
  refine fun n s => Ensures.bind .accept ?_
  rintro _ t - (⟨rfl, -, less⟩ | ⟨rfl, -, rfl⟩)
  · intro b u done
    have shorter := (h.yields t b u done).1
    exact ⟨shorter, fun _ => Nat.lt_of_le_of_lt shorter less⟩
  · exact h' n t

theorem when? {present : Rule Bool} (p : Forward present) (h : Advances rule) :
    Consumes (Rule.when? present rule) := by
  refine fun n s => (p.yields s).bind fun found t shorter _ => ?_
  cases found with
  | false => exact .pure fun some => absurd rfl some
  | true => exact ((h.map) n t).mono fun _ _ less _ => Nat.lt_of_lt_of_le less shorter

/-- A round of `many`. -/
theorem collect {round : Rule (Option α)} (h : Consumes round) (items : List α) :
    Consumes (Rule.collect round items) := by
  refine fun n s => (h n s).bind fun a? t _ less => .pure fun some => less ?_
  rintro rfl
  exact some rfl

end Consumes

end Rule

namespace Grammar

open Rule

variable {b : Blocks} {k : Knot}

/-! ### The loops of the grammar -/

/-- A further literal of those that stand next to each other. -/
def nextLiteral (k : Knot) (j : Joining) : Rule (Option Joining) := do
  match ← look with
  | .string value kind =>
    let token ← take
    some <$> joinLiteral k j value kind token.span
  | _ => return none

theorem strings_eq (k : Knot) : strings k = do
    let start ← here
    let joined ← loop (nextLiteral k) (Joining.empty start)
    return joined.toExpr (← spanFrom start) :=
  rfl

/-- A dot, or three, before the name of a module. -/
def importDots : Rule (Option Nat) := do
  if ← accept (.op .dot) then return some 1
  else if ← accept (.op .ellipsis) then return some 3
  else return none

theorem importLevel_eq : importLevel = do return (← many importDots).foldl (· + ·) 0 :=
  rfl

/-- What is read again and again by `many`. -/
inductive Item (b : Blocks) (k : Knot) : {α : Type} → Rule (Option α) → Prop where
  | marked {mark : Mark} {α : Type} {rule : Rule α} (h : Forward rule) :
    Item b k (when? (accept mark) rule)
  | clause : Item b k (when? (isNext (.word .forKw)) (comprehension k))
  | comparison : Item b k (comparison k)
  | dots : Item b k importDots
  | furtherStatement : Item b k (furtherStatement k)
  | blockLine : Item b k (blockLine b)
  | handler : Item b k (when? (isNext (.word .exceptKw)) (exceptHandler b k))
  | scriptLine {size : Nat} : Item b k (scriptLine k size)

/-- What is done in a round of a loop. -/
inductive Round (b : Blocks) (k : Knot) : {α : Type} → (α → Rule (Option α)) → Prop where
  | literal : Round b k (nextLiteral k)
  | postfixed {start : Pos} : Round b k (postfixed k start)
  | extend {min : Level} {start : Pos} : Round b k (extend k min start)
  | furtherTarget : Round b k (furtherTarget k)
  | many {α : Type} {round : Rule (Option α)} (h : Item b k round) : Round b k (collect round)
  | further {α : Type} {isEnd : Rule Bool} {add : α → Rule α} (e : Forward isEnd)
    (h : ∀ a, Forward (add a)) : Round b k (afterComma isEnd add)

theorem nextLiteral_consumes (k : Knot) (j : Joining) : Consumes (nextLiteral k j) := by
  refine .look fun n s => ?_
  split
  · rename_i value kind found
    have value (source : String) (span : Span) : Rule.Parallel (fun _ rule _ => Forward rule)
        (holeValue k source span) (holeValue k source span) :=
      .given (holeValue_forward k source span)
    refine (Ensures.taken (by rw [found]; rfl) fun token n => ?_).mono fun _ _ less _ => less
    exact (Forward.of_self (.map (joinLiteral_parallel value))).yields
  · exact Consumes.none n s

theorem importDots_consumes : Consumes importDots :=
  .accept (.of_self .pure) (.accept (.of_self .pure) .none)

/-- What the rules that blocks and expressions come back to are known to do. -/
structure Steady (b : Blocks) (k : Knot) : Prop where
  tidy : Tidy k
  covers : KnotCovers (some k) k
  advances : KnotAdvances k
  forward : Knot.Parallel (fun _ rule _ => Forward rule) k k
  held : BlocksCovers b k
  statement : Advances b.statement
  backless : Blocks.Parallel (fun _ rule _ => Forward rule) b b

section

variable (steady : Steady b k)
include steady

theorem Production.forward_of_steady {α : Type} {rule : Rule α}
    (production : Production b k rule) : Forward rule :=
  production.forward steady.forward steady.backless

theorem comparison_consumes : Consumes (comparison k) := by
  have operand (n : Nesting) (s : Stream) :
      Ensures n (k.operation .bitOr) s fun _ t => True ∧ Ended .bitOr t :=
    (steady.tidy.ended n .bitOr s).mono fun _ _ ended => ⟨trivial, ended⟩
  intro n s
  refine (comparison_ensures (P := fun _ => True) (operand n)).mono fun c? t one some => ?_
  obtain ⟨c, found⟩ := Option.ne_none_iff_exists'.1 some
  exact (one.2 c found).2.2

/-- An operator is read before its operand. -/
theorem extend_consumes {min : Level} {start : Pos} (left : Expr) :
    Consumes (extend k min start left) := by
  intro n s
  rcases ended_or_joint min s with ended | ⟨level, joint, found, tight⟩
  · intro e? t done
    cases (extend_of_ended ended).symm.trans done
    exact ⟨Nat.le_refl _, fun some => absurd rfl some⟩
  · intro e? t done
    rw [extend_of_joint _ _ found tight] at done
    obtain ⟨shorter, -, less, -⟩ := join_ensures steady.tidy found _ _ done
    exact ⟨shorter, fun _ => less⟩

theorem postfixed_consumes {start : Pos} (owner : Expr) : Consumes (postfixed k start owner) := by
  have arguments := arguments_parallel steady.forward
  have slices := slices_parallel steady.forward
  refine .accept ?_ (.accept ?_ (.accept ?_ .none))
  · exact .of_self (arguments.bind fun _ => .bind .spanFrom fun _ => .pure)
  · exact .of_self (slices.bind fun _ => .bind .expect fun _ => .bind .spanFrom fun _ => .pure)
  · exact .of_self (.bind .name fun _ => .bind .spanFrom fun _ => .pure)

theorem furtherTarget_consumes (read : List Expr × Expr) : Consumes (furtherTarget k read) := by
  have value := assignedValue_parallel steady.forward
  exact .accept (.of_self (.bind .lift fun _ => value.bind fun _ => .pure)) .none

theorem furtherStatement_consumes : Consumes (furtherStatement k) := by
  refine .accept (.of_self (.bind .look fun kind => ?_)) .none
  split
  · exact .pure
  · exact .pure
  · exact .map (smallStatement_parallel steady.forward)

theorem blockLine_consumes : Consumes (blockLine b) := by
  refine .look fun n s => ?_
  split <;> rename_i found
  · exact fun lines? t done => by cases done; exact ⟨s.size_advance_le, fun some => absurd rfl some⟩
  · exact Consumes.none n s
  · exact (Ensures.taken (by rw [found]; rfl) fun _ _ => .pure trivial).mono fun _ _ less _ => less
  · exact Consumes.of_advances steady.statement.map n s

theorem scriptLine_consumes {size : Nat} : Consumes (scriptLine k size) := by
  have statement : Advances (statementWithin k (size + 1)) := by
    simp only [statementWithin]
    exact statement_advances steady.covers steady.advances
      (statementWithin_covers steady.covers size)
  refine .look fun n s => ?_
  split <;> rename_i found
  · exact Consumes.none n s
  · exact (Ensures.taken (by rw [found]; rfl) fun _ _ => .pure trivial).mono fun _ _ less _ => less
  · exact Consumes.of_advances statement.map n s

theorem Item.consumes {α : Type} {round : Rule (Option α)} (item : Item b k round) :
    Consumes round := by
  cases item with
  | marked h => exact .accept (.of_self (.map (.given h))) .none
  | clause =>
    have target := loopTarget_parallel steady.forward
    have operand := steady.forward.operation .or
    refine .when? (.of_self .isNext) (.here fun start => .expect fun n => ?_)
    exact (Forward.of_self (target.bind fun _ => .bind .expect fun _ => operand.bind fun _ =>
      (Parallel.many (.when? .accept operand)).bind fun _ => .bind .spanFrom fun _ => .pure)).yields
  | comparison => exact comparison_consumes steady
  | dots => exact importDots_consumes
  | furtherStatement => exact furtherStatement_consumes steady
  | blockLine => exact blockLine_consumes steady
  | handler =>
    refine .when? (.of_self .isNext) (.here fun start => .expect fun n => ?_)
    exact (Forward.of_self ((handled_parallel steady.forward).bind fun _ =>
      (block_parallel steady.forward steady.backless).bind fun _ =>
        .bind .spanFrom fun _ => .pure)).yields
  | scriptLine => exact scriptLine_consumes steady

/-- A round reads a token, or it is the last one. -/
theorem Round.consumes {α : Type} {round : α → Rule (Option α)} (listed : Round b k round) (a : α) :
    Consumes (round a) := by
  cases listed with
  | literal => exact nextLiteral_consumes k a
  | postfixed => exact postfixed_consumes steady a
  | extend => exact extend_consumes steady a
  | furtherTarget => exact furtherTarget_consumes steady a
  | many item => exact (item.consumes steady).collect a
  | further e h =>
    refine .accept (.of_self ?_) .none
    exact (Parallel.given e).bind fun _ => .ite .pure (.map (.given (h a)))

/-! ### What takes a token at least -/

theorem arguments_advances : Advances (arguments k) := by
  have items : Forward (addItems (isNext (.op .rightParen)) (argument k) .empty) :=
    .of_self (.addItems .isNext fun _ => argument_parallel steady.forward)
  exact .skip (fun _ => items.yields) fun _ => .expect fun _ => .pure trivial

theorem block_advances : Advances (block b k) := by
  refine .expect fun _ => Forward.yields (.of_self (.nested (.bind .look fun kind => ?_)))
  split
  · exact .bind .take fun _ => indentedBlock_parallel steady.backless
  · exact simpleStatements_parallel steady.forward

/-- The rules for what is never empty. -/
inductive Solid (b : Blocks) (k : Knot) : {α : Type} → Rule α → Prop where
  | statement : Solid b k (statement b k)
  | smallStatement : Solid b k (smallStatement k)
  | expression : Solid b k (expression k)
  | operation {min : Level} : Solid b k (operation k min)
  | factor : Solid b k (factor k)
  | primary : Solid b k (primary k)
  | atom : Solid b k (atom k)
  | arguments : Solid b k (arguments k)
  | block : Solid b k (block b k)

theorem Solid.advances {α : Type} {rule : Rule α} (solid : Solid b k rule) : Advances rule := by
  cases solid with
  | statement => exact statement_advances steady.covers steady.advances steady.held
  | smallStatement => exact smallStatement_advances steady.covers steady.advances
  | expression => exact expression_advances steady.covers
  | operation => exact operation_advances steady.covers
  | factor => exact factor_advances steady.covers
  | primary => exact primary_advances steady.covers
  | atom => exact atom_advances steady.covers
  | arguments => exact arguments_advances steady
  | block => exact block_advances steady

/-! ### As many statements as tokens at most -/

omit steady in
theorem many_length {α : Type} {round : Rule (Option α)} (h : Consumes round) (n : Nesting)
    (s : Stream) : Ensures n (many round) s fun items t => items.length + t.size ≤ s.size := by
  rw [many_eq]
  refine Ensures.bind (P := fun items t => items.length + t.size ≤ s.size) (Ensures.loop
    (I := fun items u => items.length + u.size ≤ s.size) (fun items u few => ?_) ?_)
    fun items t _ few => .pure (by rwa [List.length_reverse])
  · refine (h n u).bind fun a? t shorter less => .pure ⟨fun _ => by omega, ?_⟩
    rintro _ found
    obtain ⟨a, rfl, rfl⟩ := Option.map_eq_some_iff.1 found
    have less := less (Option.some_ne_none _)
    exact ⟨by rw [List.length_cons]; omega, .inl less⟩
  · simp

theorem simpleStatements_length (n : Nesting) (s : Stream) :
    Ensures n (simpleStatements k) s fun body t => body.length + t.size ≤ s.size := by
  refine (smallStatement_advances steady.covers steady.advances n s).bind fun first t _ less => ?_
  refine (many_length (furtherStatement_consumes steady) n t).bind fun rest u _ few => ?_
  refine (lineEnd_yields u).bind fun _ v shorter _ => .pure ?_
  rw [List.length_cons]
  omega

theorem statement_length (n : Nesting) (s : Stream) :
    Ensures n (statement b k) s fun body t => body.length + t.size ≤ s.size := by
  have alone {rule : Rule Stmt} (production : Production b k rule) (u : Stream) :
      Ensures n (do return [← rule]) u fun body t =>
        body.length = 1 ∨ body.length + t.size ≤ s.size :=
    ((production.forward_of_steady steady).yields u).bind fun _ _ _ _ => .pure (.inl rfl)
  have shape : Ensures n (statement b k) s fun body t =>
      body.length = 1 ∨ body.length + t.size ≤ s.size := by
    unfold statement
    refine Ensures.bind .look ?_
    rintro _ s - ⟨rfl, rfl⟩
    split
    · exact alone .ifStatement s
    · exact alone .whileStatement s
    · exact alone .forStatement s
    · exact alone .withStatement s
    · exact alone .functionDef s
    · exact alone .classDef s
    · exact alone .tryStatement s
    · exact alone .decorated s
    · exact (simpleStatements_length steady n s).mono fun _ _ few => .inr few
  intro body t done
  obtain ⟨shorter, less⟩ :=
    statement_advances steady.covers steady.advances steady.held n s body t done
  refine ⟨shorter, (shape body t done).2.elim (fun one => ?_) id⟩
  omega

end

/-- The rules that those for a script come back to, whatever room is left. -/
theorem steady_rounds (hole : Nat → String → Except Error Expr) (size left : Nat) :
    Steady ⟨statementWithin (rounds hole size) left, branchWithin (rounds hole size) left⟩
      (rounds hole size) := by
  have covers : KnotCovers (some (rounds hole size)) (rounds hole size) := within_covers size
  have advances : KnotAdvances (rounds hole size) := by
    cases size with
    | zero =>
      refine ⟨?_, fun min => ?_, ?_⟩ <;> exact fun _ _ _ _ failed => nomatch failed
    | succ size => exact knot_advances size
  have forward : Knot.Parallel (fun _ rule _ => Forward rule) (rounds hole size)
      (rounds hole size) :=
    rounds_parallel (fun k _ _ _ source span => holeValue_forward k source span) size
  refine ⟨tidy_rounds hole size, covers, advances, forward, statementWithin_covers covers left, ?_,
    within_parallel forward left⟩
  cases left with
  | zero => exact fun _ _ _ _ failed => nomatch failed
  | succ left =>
    simp only [statementWithin]
    exact statement_advances covers advances (statementWithin_covers covers left)

/-- A script has as many statements as it uses tokens at most. -/
theorem script_length (hole : Nat → String → Except Error Expr) (size room : Nat) (n : Nesting)
    (s : Stream) :
    Ensures n (script (rounds hole size) room) s fun m t => m.body.length + t.size ≤ s.size := by
  have line (u : Stream) : Ensures n (scriptLine (rounds hole size) room) u fun body? t =>
      ∀ body ∈ body?, body.length + t.size ≤ u.size ∧ t.size < u.size := by
    have steady := steady_rounds hole size room
    refine Ensures.bind .look ?_
    rintro _ u - ⟨rfl, rfl⟩
    split <;> rename_i found
    · exact .pure forall_mem_none
    · refine Ensures.bind .take fun _ t _ less => .pure (forall_mem_some ?_)
      have less := less (by rw [found]; rfl)
      exact ⟨by rw [List.length_nil]; omega, less⟩
    · have read : statementWithin (rounds hole size) (room + 1) =
          statement ⟨statementWithin (rounds hole size) room, branchWithin (rounds hole size) room⟩
            (rounds hole size) := by
        simp only [statementWithin]
      rw [read]
      intro body? t done
      obtain ⟨⟨body, v⟩, read, ⟨⟩⟩ := ok_of_bind
        (show statement _ _ n u >>= _ = .ok (body?, t) from done)
      obtain ⟨shorter, less⟩ :=
        statement_advances steady.covers steady.advances steady.held n u body _ read
      exact ⟨shorter, forall_mem_some ⟨(statement_length steady n u body _ read).2, less⟩⟩
  unfold script
  rw [many_eq]
  refine Ensures.bind (P := fun lines t => lines.flatten.length + t.size ≤ s.size) ?_
    fun lines t _ few => .pure few
  refine Ensures.bind (P := fun lines t => lines.flatten.length + t.size ≤ s.size) (Ensures.loop
    (I := fun lines u => lines.flatten.length + u.size ≤ s.size) (fun lines u few => ?_) (by simp))
    fun lines t _ few => .pure (by simpa [List.length_flatten] using few)
  refine (line u).bind fun body? t shorter each => .pure ⟨fun _ => by omega, ?_⟩
  rintro _ found
  obtain ⟨body, rfl, rfl⟩ := Option.map_eq_some_iff.1 found
  obtain ⟨one, less⟩ := each body rfl
  exact ⟨by rw [List.flatten_cons, List.length_append]; omega, .inl less⟩

end Grammar

section

open Grammar

/-- Reading a script always makes progress. Whatever room is left, and at any depth: what stands for
a statement, an expression, an operand, arguments or a block takes a token at least, no rule gives a
token back, and a round of a loop takes a token or is the last one. Hence neither the room for
returns nor the levels of holes run out, so that the tokens are read to a tree or an error whatever
would be done there, and there are no more statements than tokens. -/
theorem Module.parsing_progresses {bytes : List UInt8} {tokens : List (Token TokenKind)}
    (lexed : Script.tokens bytes = .ok tokens) (maxDepth : Nat) :
    (∀ (hole : Nat → String → Except Error Expr) (size left : Nat) (n : Nesting),
      let k := rounds hole size
      let b : Blocks := ⟨statementWithin k left, branchWithin k left⟩
      (∀ (α : Type) (rule : Rule α), Solid b k rule →
        ∀ s a t, rule n s = .ok (a, t) → t.size < s.size) ∧
      (∀ (α : Type) (rule : Rule α), Production b k rule →
        ∀ s a t, rule n s = .ok (a, t) → t.rest <:+ s.rest) ∧
      ∀ (α : Type) (round : α → Rule (Option α)), Round b k round →
        ∀ a s a' t, round a n s = .ok (some a', t) → t.size < s.size) ∧
    (∀ bottom : Bottom,
      bottom.ofTokens maxDepth bytes.length tokens = ofTokens maxDepth bytes.length tokens) ∧
    ∀ m, ofTokens maxDepth bytes.length tokens = .ok m → m.body.length ≤ tokens.length := by
  refine ⟨fun hole size left n => ?_, fun bottom => (ofTokens_eq_bottom bottom lexed maxDepth).symm,
    fun m parsed => ?_⟩
  · have steady := steady_rounds hole size left
    refine ⟨fun α rule solid s a t done => (solid.advances steady n s a t done).2,
      fun α rule production s a t done => production.forward_of_steady steady n s a t done,
      fun α round listed a s a' t done => ?_⟩
    exact (listed.consumes steady a n s (some a') t done).2 (Option.some_ne_none a')
  · obtain ⟨⟨m', t⟩, read, ⟨⟩⟩ := ok_of_bind
      (show script _ tokens.length ⟨maxDepth, 0⟩ (.ofTokens tokens) >>= _ = .ok m from parsed)
    exact Nat.le_trans (Nat.le_add_right _ t.size)
      (script_length _ (tokens.length + 1) tokens.length _ (.ofTokens tokens) m t read).2

theorem Module.parsing_progresses_call :
    ∃ tokens m body t, Script.tokens (utf8 "f(1)\n") = .ok tokens ∧
      ofTokens 0 (utf8 "f(1)\n").length tokens = .ok m ∧ m.body.length ≤ tokens.length ∧
      let k := rounds (readHole (utf8 "f(1)\n").length) (tokens.length + 1)
      statement ⟨statementWithin k tokens.length, branchWithin k tokens.length⟩ k ⟨0, 0⟩
        (.ofTokens tokens) = .ok (body, t) ∧ t.size < tokens.length := by
  have accepted : ((Script.tokens (utf8 "f(1)\n")).toOption.bind fun tokens =>
      (ofTokens 0 (utf8 "f(1)\n").length tokens).toOption.map fun _ => ()) = some () := by
    decide +kernel
  have read : ((Script.tokens (utf8 "f(1)\n")).toOption.bind fun tokens =>
      let k := rounds (readHole (utf8 "f(1)\n").length) (tokens.length + 1)
      (statement ⟨statementWithin k tokens.length, branchWithin k tokens.length⟩ k ⟨0, 0⟩
        (.ofTokens tokens)).toOption.map fun _ => ()) = some () := by
    decide +kernel
  obtain ⟨tokens, found, accepted⟩ := Option.bind_eq_some_iff.1 accepted
  obtain ⟨tokens', found', read⟩ := Option.bind_eq_some_iff.1 read
  cases found.symm.trans found'
  have lexed := ok_of_toOption found
  obtain ⟨m, parsed, -⟩ := Option.map_eq_some_iff.1 accepted
  obtain ⟨⟨body, t⟩, read, -⟩ := Option.map_eq_some_iff.1 read
  obtain ⟨each, -, few⟩ := parsing_progresses lexed 0
  refine ⟨tokens, m, body, t, lexed, ok_of_toOption parsed, few m (ok_of_toOption parsed),
    ok_of_toOption read, ?_⟩
  exact (each _ (tokens.length + 1) tokens.length ⟨0, 0⟩).1 _ _ .statement _ body t
    (ok_of_toOption read)

end

end ScoreScript.Script
