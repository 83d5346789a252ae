import ScoreScript.Proofs.Grammar.Layers
import ScoreScript.Proofs.Grammar.Room

/-!
Climbing reads what the layered grammar reads. The loop of an operation takes operators of its level
and of tighter ones. It can be cut after those that are tighter (`operation_split`): what has been
read by then is an operand of the level, and no tighter operator comes next, so from there on the loop
goes round only for operators of its own level. Main statement: `operation_layered`.
-/

namespace ScoreScript.Script

open Rule

namespace Rule

variable {α : Type} {n : Nesting} {s t : Stream} {round : α → Rule (Option α)} {a b : α}

theorem loop_of_none (last : round a n s = .ok (none, t)) : loop round a n s = .ok (a, t) := by
  rw [loop, last]

theorem loop_of_some (first : round a n s = .ok (some b, t)) (less : t.size < s.size) :
    loop round a n s = loop round b n t := by
  rw [loop, first]
  exact dif_pos less

theorem loop_of_error {e : Error} (failed : round a n s = .error e) :
    loop round a n s = .error e := by
  rw [loop, failed]

theorem bind_of_ok {β : Type} {rule : Rule α} {next : α → Rule β} (first : rule n s = .ok (a, t)) :
    (rule >>= next) n s = next a n t := by
  change rule n s >>= _ = _
  rw [first]
  rfl

theorem bind_of_error {β : Type} {rule : Rule α} {next : α → Rule β} {e : Error}
    (failed : rule n s = .error e) : (rule >>= next) n s = .error e := by
  change rule n s >>= _ = _
  rw [failed]
  rfl

theorem here_bind {next : Pos → Rule α} :
    (here >>= next) n s = next s.current.span.start n s :=
  rfl

theorem look_bind {next : TokenKind → Rule α} : (look >>= next) n s = next s.current.kind n s :=
  rfl

theorem lookAhead_bind {next : TokenKind → Rule α} :
    (lookAhead >>= next) n s = next s.second.kind n s :=
  rfl

/-- What follows may be replaced where it is the same after all that the first part can read. -/
theorem bind_congr {β : Type} {rule : Rule α} {next next' : α → Rule β} {P : α → Stream → Prop}
    (ensures : Ensures n rule s P) (same : ∀ a t, P a t → next a n t = next' a n t) :
    (rule >>= next) n s = (rule >>= next') n s := by
  cases first : rule n s with
  | error e => rw [bind_of_error first, bind_of_error first]
  | ok result =>
    obtain ⟨a, t⟩ := result
    rw [bind_of_ok first, bind_of_ok first, same a t (ensures a t first).2]

end Rule

theorem Level.rank_le_next (level : Level) : level.rank ≤ level.next.rank := by
  cases level <;> decide

namespace Grammar

/-- The rules of a knot give no token back, and an operation ends where no operator of its level or a
tighter one comes next. -/
structure Tidy (k : Knot) : Prop where
  quiet : ∀ m, Knot.Alike m k k
  ended : ∀ n min s, Ensures n (k.operation min) s fun _ t => Ended min t

variable {n : Nesting} {k : Knot} {s : Stream}

/-! ### One joint -/

/-- Apply a joint of some level to what is to the left of it. -/
def join (k : Knot) (level : Level) (start : Pos) (left : Expr) : Joint → Rule (Option Expr)
  | .boolean word op => do
    let rest ← many (when? (accept (.word word)) (k.operation level.next))
    return some (.boolean op (left :: rest) (← spanFrom start))
  | .compare => do
    let rest ← many (comparison k)
    return some (.compare left rest (← spanFrom start))
  | .binary op => do
    let _ ← take
    let right ← k.operation level.next
    return some (.binary left op right (← spanFrom start))

theorem extend_of_ended {min : Level} {start : Pos} {left : Expr} (ended : Ended min s) :
    extend k min start left n s = .ok (none, s) := by
  rw [extend, look_bind, lookAhead_bind]
  cases found : Joint.ofKinds? s.current.kind s.second.kind with
  | none => rfl
  | some result =>
    obtain ⟨level, joint⟩ := result
    dsimp only
    rw [if_pos (ended level joint found)]
    rfl

theorem extend_of_joint {min level : Level} {joint : Joint} (start : Pos) (left : Expr)
    (found : Joint.ofKinds? s.current.kind s.second.kind = some (level, joint))
    (tight : min.rank ≤ level.rank) :
    extend k min start left n s = join k level start left joint n s := by
  rw [extend, look_bind, lookAhead_bind, found]
  dsimp only
  rw [if_neg (Nat.not_lt.2 tight)]
  cases joint <;> rfl

/-- Operators have ended, or there is a joint to go on with. -/
theorem ended_or_joint (min : Level) (s : Stream) :
    Ended min s ∨ ∃ level joint,
      Joint.ofKinds? s.current.kind s.second.kind = some (level, joint) ∧
        min.rank ≤ level.rank := by
  rcases found : Joint.ofKinds? s.current.kind s.second.kind with _ | ⟨level, joint⟩
  · exact .inl fun level joint found' => by rw [found] at found'; cases found'
  · rcases Nat.lt_or_ge level.rank min.rank with loose | tight
    · refine .inl fun level' joint' found' => ?_
      rw [found] at found'
      cases found'
      exact loose
    · exact .inr ⟨level, joint, rfl, tight⟩

/-- What a joint leaves: an operand has been read, so nothing tighter comes next, and behind a word
or a comparison no more of the same. -/
theorem join_ensures (tidy : Tidy k) {level : Level} {joint : Joint} {start : Pos} {left : Expr}
    (found : Joint.ofKinds? s.current.kind s.second.kind = some (level, joint)) :
    Ensures n (join k level start left joint) s fun e? t =>
      e? ≠ none ∧ t.size < s.size ∧ Ended level.next t ∧
        ((∀ op, joint ≠ .binary op) → Ended level t) := by
  have operand (level : Level) (s : Stream) :
      Ensures n (k.operation level) s fun _ t => True ∧ Ended level t :=
    (tidy.ended n level s).mono fun _ _ ended => ⟨trivial, ended⟩
  have looser {t : Stream} (ended : Ended level t) : Ended level.next t :=
    fun level' joint' found' => Nat.lt_of_lt_of_le (ended level' joint' found') level.rank_le_next
  cases joint with
  | boolean word op =>
    refine (words_ensures (operand _) found).bind ?_
    rintro rest t - ⟨-, ended, less⟩
    refine Ensures.bind .spanFrom ?_
    rintro span t - rfl
    exact .pure ⟨nofun, less, looser ended, fun _ => ended⟩
  | compare =>
    obtain ⟨-, -, ⟨⟩⟩ | ⟨-, -, ⟨⟩⟩ | ⟨-, rfl, -⟩ | ⟨-, op, -, ⟨⟩⟩ := Joint.ofKinds?_cases found
    refine (comparisons_ensures (operand _) found).bind ?_
    rintro rest t - ⟨-, ended, less⟩
    refine Ensures.bind .spanFrom ?_
    rintro span t - rfl
    exact .pure ⟨nofun, less, looser ended, fun _ => ended⟩
  | binary op =>
    obtain ⟨-, -, ⟨⟩⟩ | ⟨-, -, ⟨⟩⟩ | ⟨-, -, ⟨⟩⟩ | ⟨present, -⟩ := Joint.ofKinds?_cases found
    refine Ensures.bind .take fun _ t _ less => ?_
    refine (tidy.ended n level.next t).bind fun right u le ended => ?_
    refine Ensures.bind .spanFrom ?_
    rintro span u - rfl
    refine .pure ⟨nofun, Nat.lt_of_le_of_lt le (less present), ended, fun none => ?_⟩
    exact absurd rfl (none op)

/-! ### The loop -/

theorem firstOperand_ensures (tidy : Tidy k) {min : Level} :
    Ensures n (firstOperand k min) s fun _ _ => True :=
  (firstOperand_alike (tidy.quiet s.size) n s (Nat.lt_succ_self _)).ensures

/-- An operation ends where no operator of its level comes next. -/
theorem operation_ended (tidy : Tidy k) (n : Nesting) (min : Level) (s : Stream) :
    Ensures n (operation k min) s fun _ t => Ended min t := by
  unfold operation
  refine Ensures.bind .here fun start s _ _ => ?_
  refine (firstOperand_ensures tidy).bind fun first s _ _ => ?_
  refine Ensures.loop (I := fun _ _ => True) (fun left u _ e? t done => ?_) trivial
  rcases ended_or_joint min u with ended | ⟨level, joint, found, tight⟩
  · rw [extend_of_ended ended] at done
    cases done
    exact ⟨Nat.le_refl _, fun _ => ended, nofun⟩
  · rw [extend_of_joint _ _ found tight] at done
    obtain ⟨le, some, less, -⟩ := join_ensures tidy found _ _ done
    exact ⟨le, fun none => absurd none some, fun _ _ => ⟨trivial, .inl less⟩⟩

/-- The loop goes round for tighter operators first, and then for those of its level as well. -/
theorem loop_split (tidy : Tidy k) {min : Level} {start : Pos} {left : Expr} :
    loop (extend k min start) left n s =
      (loop (extend k min.next start) left >>= loop (extend k min start)) n s := by
  induction size : s.size using Nat.strongRecOn generalizing left s with
  | ind size' ih =>
    rcases ended_or_joint min.next s with ended | ⟨level, joint, found, tight⟩
    · rw [bind_of_ok (loop_of_none (extend_of_ended ended))]
    have inner := extend_of_joint (k := k) (n := n) start left found tight
    have outer := extend_of_joint (k := k) (n := n) start left found
      (Nat.le_trans min.rank_le_next tight)
    cases one : join k level start left joint n s with
    | error e =>
      rw [one] at inner outer
      rw [loop_of_error outer, bind_of_error (loop_of_error inner)]
    | ok result =>
      obtain ⟨e?, t⟩ := result
      obtain ⟨-, some, less, -⟩ := join_ensures tidy found _ _ one
      obtain ⟨e, rfl⟩ := Option.ne_none_iff_exists'.1 some
      rw [one] at inner outer
      rw [loop_of_some outer less, ih t.size (size ▸ less) rfl]
      change loop _ e n t >>= _ = loop _ left n s >>= _
      rw [loop_of_some inner less]

/-- An operation is an operation of the next tighter level, and then operators of its own. -/
theorem operation_split (tidy : Tidy k) {min : Level}
    (same : firstOperand k min = firstOperand k min.next) :
    operation k min =
      here >>= fun start => operation k min.next >>= loop (extend k min start) := by
  funext n s
  let start := s.current.span.start
  have inner : operation k min.next n s =
      (firstOperand k min >>= loop (extend k min.next start)) n s := by
    rw [same]
    rfl
  calc
    operation k min n s = (firstOperand k min >>= loop (extend k min start)) n s := rfl
    _ = (firstOperand k min >>= fun first =>
          loop (extend k min.next start) first >>= loop (extend k min start)) n s :=
      bind_congr (firstOperand_ensures tidy) fun first t _ => loop_split tidy
    _ = ((firstOperand k min >>= loop (extend k min.next start)) >>=
          loop (extend k min start)) n s := by rw [bind_assoc]
    _ = (operation k min.next >>= loop (extend k min start)) n s := by
      change (firstOperand k min >>= loop (extend k min.next start)) n s >>= _ = _
      rw [← inner]
      rfl

/-! ### The joints of a level -/

/-- The operators of a level are those that a table lists. -/
def ListedBy (level : Level) (operator? : TokenKind → Option BinaryOperator) : Prop :=
  ∀ first second joint, Joint.ofKinds? first second = some (level, joint) ↔
    ∃ op, operator? first = some op ∧ joint = .binary op

theorem ofKinds?_eq_binary_iff {first second : TokenKind} {level : Level} {joint : Joint}
    (tight : Level.compare.rank < level.rank) :
    Joint.ofKinds? first second = some (level, joint) ↔
      ∃ sign op, first = .op sign ∧ BinaryOperator.ofOperator? sign = some op ∧
        op.level? = some level ∧ joint = .binary op := by
  constructor
  · intro found
    unfold Joint.ofKinds? at found
    split at found
    · cases found
      exact absurd tight (by decide)
    · cases found
      exact absurd tight (by decide)
    split at found
    · cases found
      exact absurd tight (Nat.lt_irrefl _)
    split at found
    · rename_i sign _ _ _
      obtain ⟨op, spelled, found⟩ := Option.bind_eq_some_iff.1 found
      obtain ⟨level', known, ⟨⟩⟩ := Option.bind_eq_some_iff.1 found
      exact ⟨sign, op, rfl, spelled, known, rfl⟩
    · cases found
  · rintro ⟨sign, op, rfl, spelled, known, rfl⟩
    have noComparison : CompareOperator.ofKinds? (.op sign) second = none := by
      cases sign <;> first | rfl | cases spelled
    unfold Joint.ofKinds?
    dsimp only
    rw [noComparison, if_neg nofun]
    change (BinaryOperator.ofOperator? sign).bind _ = _
    rw [spelled, Option.bind_some]
    change op.level?.bind _ = _
    rw [known, Option.bind_some]
    rfl

/-- A table lists the operators of a level if it does so for the signs. -/
theorem listedBy_of_table {level : Level} {operator? : TokenKind → Option BinaryOperator}
    (tight : Level.compare.rank < level.rank)
    (table : ∀ sign, operator? (.op sign) =
      (BinaryOperator.ofOperator? sign).filter (·.level? == some level))
    (others : ∀ kind, operator? kind = none ∨ ∃ sign, kind = .op sign) :
    ListedBy level operator? := by
  intro first second joint
  rw [ofKinds?_eq_binary_iff tight]
  constructor
  · rintro ⟨sign, op, rfl, spelled, known, rfl⟩
    refine ⟨op, ?_, rfl⟩
    rw [table, spelled, Option.filter_some, if_pos (beq_iff_eq.2 known)]
  · rintro ⟨op, known, rfl⟩
    rcases others first with none | ⟨sign, rfl⟩
    · rw [none] at known
      cases known
    · rw [table, Option.filter_eq_some_iff] at known
      exact ⟨sign, op, rfl, known.1, beq_iff_eq.1 known.2, rfl⟩

/-- The tables of the layered grammar. -/
theorem listed_tables :
    ListedBy .bitOr Layered.bar? ∧ ListedBy .bitXor Layered.caret? ∧
      ListedBy .bitAnd Layered.ampersand? ∧ ListedBy .shift Layered.shiftOperator? ∧
      ListedBy .sum Layered.sumOperator? ∧ ListedBy .product Layered.productOperator? := by
  refine ⟨?_, ?_, ?_, ?_, ?_, ?_⟩ <;>
    refine listedBy_of_table (by decide) (fun sign => by cases sign <;> rfl) fun kind => ?_ <;>
    cases kind <;> first | exact .inl rfl | exact .inr ⟨_, rfl⟩

theorem ofKinds?_eq_compare_iff {first second : TokenKind} {joint : Joint} :
    Joint.ofKinds? first second = some (.compare, joint) ↔
      (CompareOperator.ofKinds? first second).isSome ∧ joint = .compare := by
  constructor
  · intro found
    obtain ⟨-, ⟨⟩, -⟩ | ⟨-, ⟨⟩, -⟩ | ⟨compares, -, rfl⟩ | ⟨-, op, known, -⟩ :=
      Joint.ofKinds?_cases found
    · exact ⟨compares, rfl⟩
    · exact absurd (BinaryOperator.level?_cases known).1 (by decide)
  · rintro ⟨compares, rfl⟩
    unfold Joint.ofKinds?
    split
    · cases compares
    · cases compares
    · rw [if_pos compares]

theorem ofKinds?_eq_or_iff {first second : TokenKind} {joint : Joint} :
    Joint.ofKinds? first second = some (.or, joint) ↔
      Mark.ofKind? first = some (.word .orKw) ∧ joint = .boolean .orKw .or := by
  constructor
  · intro found
    obtain ⟨rfl, -, rfl⟩ | ⟨-, ⟨⟩, -⟩ | ⟨-, ⟨⟩, -⟩ | ⟨-, op, known, -⟩ := Joint.ofKinds?_cases found
    · exact ⟨rfl, rfl⟩
    · exact absurd (BinaryOperator.level?_cases known).1 (by decide)
  · rintro ⟨word, rfl⟩
    cases first <;> cases word
    rfl

theorem ofKinds?_eq_and_iff {first second : TokenKind} {joint : Joint} :
    Joint.ofKinds? first second = some (.and, joint) ↔
      Mark.ofKind? first = some (.word .andKw) ∧ joint = .boolean .andKw .and := by
  constructor
  · intro found
    obtain ⟨-, ⟨⟩, -⟩ | ⟨rfl, -, rfl⟩ | ⟨-, ⟨⟩, -⟩ | ⟨-, op, known, -⟩ := Joint.ofKinds?_cases found
    · exact ⟨rfl, rfl⟩
    · exact absurd (BinaryOperator.level?_cases known).1 (by decide)
  · rintro ⟨word, rfl⟩
    cases first <;> cases word
    rfl

/-! ### One level -/

theorem loop_eq_leftStep (tidy : Tidy k) {level : Level}
    {operator? : TokenKind → Option BinaryOperator} (listed : ListedBy level operator?) {start : Pos}
    {left : Expr} (ended : Ended level.next s) :
    loop (extend k level start) left n s =
      loop (Layered.leftStep operator? (k.operation level.next) start) left n s := by
  induction size : s.size using Nat.strongRecOn generalizing left s with
  | ind size' ih =>
    cases known : operator? s.current.kind with
    | none =>
      have last : Ended level s := ended.of_next fun joint found => by
        obtain ⟨op, known', -⟩ := (listed _ _ _).1 found
        rw [known] at known'
        cases known'
      have none : Layered.leftStep operator? (k.operation level.next) start left n s =
          .ok (none, s) := by
        rw [Layered.leftStep, look_bind, known]
        rfl
      rw [loop_of_none (extend_of_ended last), loop_of_none none]
    | some op =>
      have found := (listed s.current.kind s.second.kind _).2 ⟨op, known, rfl⟩
      have outer := extend_of_joint (k := k) (n := n) start left found
        (Nat.le_refl _)
      have step : Layered.leftStep operator? (k.operation level.next) start left n s =
          join k level start left (.binary op) n s := by
        rw [Layered.leftStep, look_bind, known]
        rfl
      cases one : join k level start left (.binary op) n s with
      | error e =>
        rw [one] at outer step
        rw [loop_of_error outer, loop_of_error step]
      | ok result =>
        obtain ⟨e?, t⟩ := result
        obtain ⟨-, some, less, ended', -⟩ := join_ensures tidy found _ _ one
        obtain ⟨e, rfl⟩ := Option.ne_none_iff_exists'.1 some
        rw [one] at outer step
        rw [loop_of_some outer less, loop_of_some step less]
        exact ih t.size (size ▸ less) ended' rfl

/-- A level of operators that join from the left. -/
theorem operation_eq_leftRun (tidy : Tidy k) {level : Level}
    {operator? : TokenKind → Option BinaryOperator} (listed : ListedBy level operator?)
    (same : firstOperand k level = firstOperand k level.next) :
    operation k level = Layered.leftRun operator? (operation k level.next)
      (k.operation level.next) := by
  rw [operation_split tidy same]
  funext n s
  rw [Layered.leftRun, here_bind, here_bind]
  exact bind_congr (operation_ended tidy n level.next s) fun first t ended =>
    loop_eq_leftStep tidy listed ended

/-- Behind a word or a comparison the loop has nothing left to do. -/
theorem loop_once (tidy : Tidy k) {level : Level} {joint : Joint} {start : Pos} {left : Expr}
    (found : Joint.ofKinds? s.current.kind s.second.kind = some (level, joint))
    (chain : ∀ op, joint ≠ .binary op) :
    loop (extend k level start) left n s =
      (join k level start left joint >>= fun e? => pure (e?.getD left)) n s := by
  have outer := extend_of_joint (k := k) (n := n) start left found
    (Nat.le_refl _)
  cases one : join k level start left joint n s with
  | error e =>
    rw [one] at outer
    rw [loop_of_error outer, bind_of_error one]
  | ok result =>
    obtain ⟨e?, t⟩ := result
    obtain ⟨-, some, less, -, ended⟩ := join_ensures tidy found _ _ one
    obtain ⟨e, rfl⟩ := Option.ne_none_iff_exists'.1 some
    rw [one] at outer
    rw [loop_of_some outer less, loop_of_none (extend_of_ended (ended chain)), bind_of_ok one]
    rfl

/-- A level at which only a word joins operands. -/
theorem operation_eq_wordRun (tidy : Tidy k) {level : Level} {word : Keyword} {op : BooleanOperator}
    (listed : ∀ first second joint, Joint.ofKinds? first second = some (level, joint) ↔
      Mark.ofKind? first = some (.word word) ∧ joint = .boolean word op)
    (same : firstOperand k level = firstOperand k level.next) :
    operation k level = Layered.wordRun word op (operation k level.next)
      (k.operation level.next) := by
  rw [operation_split tidy same]
  funext n s
  rw [Layered.wordRun, here_bind, here_bind]
  refine bind_congr (operation_ended tidy n level.next s) fun first t ended => ?_
  have next : Rule.isNext (.word word) n t =
      .ok (Mark.ofKind? t.current.kind == some (.word word), t) := rfl
  rw [bind_of_ok next]
  by_cases comes : Mark.ofKind? t.current.kind = some (.word word)
  · have found := (listed _ t.second.kind _).2 ⟨comes, rfl⟩
    rw [loop_once tidy found nofun, if_pos (beq_iff_eq.2 comes), join]
    simp only [bind_assoc, pure_bind, Option.getD_some]
  · have last : Ended level t := ended.of_next fun joint found => comes ((listed _ _ _).1 found).1
    rw [loop_of_none (extend_of_ended last), if_neg (mt beq_iff_eq.1 comes)]
    rfl

/-- The level of comparisons. -/
theorem operation_compare (tidy : Tidy k)
    (same : firstOperand k .compare = firstOperand k .bitOr) :
    operation k .compare = Layered.comparisonRun k (operation k .bitOr) := by
  rw [operation_split tidy same]
  funext n s
  rw [Layered.comparisonRun, here_bind, here_bind]
  refine bind_congr (operation_ended tidy n .bitOr s) fun first t ended => ?_
  rw [look_bind, lookAhead_bind]
  cases compares : CompareOperator.ofKinds? t.current.kind t.second.kind with
  | none =>
    have last : Ended .compare t := Ended.of_next ended fun joint found => by
      have some := (ofKinds?_eq_compare_iff.1 found).1
      rw [compares] at some
      cases some
    rw [loop_of_none (extend_of_ended last)]
    rfl
  | some result =>
    have found := ofKinds?_eq_compare_iff.2 ⟨Option.isSome_iff_exists.2 ⟨_, compares⟩, rfl⟩
    rw [loop_once tidy found nofun, join]
    simp only [bind_assoc, pure_bind, Option.getD_some]

/-- No operator is of the level of `not`. -/
theorem Ended.of_compare (ended : Ended .compare s) : Ended .not s := by
  refine Ended.of_next ended fun joint found => ?_
  obtain ⟨-, ⟨⟩, -⟩ | ⟨-, ⟨⟩, -⟩ | ⟨-, ⟨⟩, -⟩ | ⟨-, op, known, -⟩ := Joint.ofKinds?_cases found
  exact absurd (BinaryOperator.level?_cases known).1 (by decide)

theorem extend_not_eq (start : Pos) : extend k .not start = extend k .compare start := by
  funext left n s
  rcases ended_or_joint .compare s with ended | ⟨level, joint, found, tight⟩
  · rw [extend_of_ended ended, extend_of_ended ended.of_compare]
  · rw [extend_of_joint _ _ found tight, extend_of_joint _ _ found (Nat.le_trans (by decide) tight)]

theorem firstOperand_of_tight {min : Level} (tight : Level.not.rank < min.rank) :
    firstOperand k min = factor k := by
  funext n s
  rw [firstOperand, here_bind]
  dsimp only
  rw [if_neg (Nat.not_le.2 tight)]
  rfl

theorem ensures_nested {α : Type} {rule : Rule α} {P : α → Stream → Prop}
    (h : ∀ n, Ensures n rule s P) : Ensures n (nested rule) s P := by
  intro a t done
  unfold nested at done
  split at done
  · exact h _ a t done
  · cases done

/-- A negation: the word `not`, and a test that may be one in turn. -/
def negation (k : Knot) (start : Pos) : Rule Expr := do
  let operand ← nested (k.operation .not)
  return Expr.unary .not operand (← spanFrom start)

theorem negation_ended (tidy : Tidy k) {start : Pos} :
    Ensures n (negation k start) s fun _ t => Ended .not t := by
  refine (ensures_nested fun n => tidy.ended n .not s).bind fun operand t _ ended => ?_
  refine Ensures.bind .spanFrom ?_
  rintro span t - rfl
  exact .pure ended

/-- The level of `not`, which stands before its operand. -/
theorem operation_not (tidy : Tidy k) :
    operation k .not = (do
      let start ← here
      if ← accept (.word .notKw) then negation k start else operation k .compare) := by
  funext n s
  let start := s.current.span.start
  have first : operation k .not n s =
      ((accept (.word .notKw) >>= fun negated => if negated then negation k start else factor k) >>=
        loop (extend k .not start)) n s := rfl
  rw [first, here_bind, bind_assoc]
  refine bind_congr .accept ?_
  rintro _ t (⟨rfl, -, -⟩ | ⟨rfl, -, rfl⟩)
  · -- what `not` reads leaves the loop nothing to do
    rw [if_pos rfl, if_pos rfl, ← bind_pure (negation k start), bind_assoc]
    refine bind_congr (negation_ended tidy) fun e t ended => ?_
    rw [pure_bind, loop_of_none (extend_of_ended ended)]
    rfl
  · have tight : firstOperand k .compare = factor k := firstOperand_of_tight (by decide)
    rw [if_neg nofun, if_neg nofun, extend_not_eq, ← tight]
    rfl

/-! ### All levels -/

theorem operation_factor (tidy : Tidy k) : operation k .factor = factor k := by
  funext n s
  have ended (s : Stream) : Ended .factor s := by
    intro level joint found
    obtain ⟨-, rfl, -⟩ | ⟨-, rfl, -⟩ | ⟨-, rfl, -⟩ | ⟨-, op, known, -⟩ := Joint.ofKinds?_cases found
    iterate 3 decide
    exact (BinaryOperator.level?_cases known).2
  have same : firstOperand k .factor = factor k := firstOperand_of_tight (by decide)
  let start := s.current.span.start
  calc
    operation k .factor n s = (firstOperand k .factor >>= loop (extend k .factor start)) n s := rfl
    _ = (firstOperand k .factor >>= pure) n s :=
      bind_congr (firstOperand_ensures tidy) fun e t _ => loop_of_none (extend_of_ended (ended t))
    _ = factor k n s := by rw [bind_pure, same]

theorem operation_eq_layer (tidy : Tidy k) (min : Level) :
    operation k min = Layered.layer k min := by
  have tight {level : Level} (le : Level.compare.rank ≤ level.rank) :
      firstOperand k level = firstOperand k level.next := by
    rw [firstOperand_of_tight le, firstOperand_of_tight (Nat.le_trans le level.rank_le_next)]
  obtain ⟨bars, carets, ampersands, shifts, sums, products⟩ := listed_tables
  have product : operation k .product = Layered.product k := by
    rw [operation_eq_leftRun tidy products (tight (by decide)), Level.next,
      operation_factor tidy]
    rfl
  have sum : operation k .sum = Layered.sum k := by
    rw [operation_eq_leftRun tidy sums (tight (by decide)), Level.next, product]
    rfl
  have shift : operation k .shift = Layered.shift k := by
    rw [operation_eq_leftRun tidy shifts (tight (by decide)), Level.next, sum]
    rfl
  have bitAnd : operation k .bitAnd = Layered.bitAnd k := by
    rw [operation_eq_leftRun tidy ampersands (tight (by decide)), Level.next, shift]
    rfl
  have bitXor : operation k .bitXor = Layered.bitXor k := by
    rw [operation_eq_leftRun tidy carets (tight (by decide)), Level.next, bitAnd]
    rfl
  have bitOr : operation k .bitOr = Layered.bitOr k := by
    rw [operation_eq_leftRun tidy bars (tight (by decide)), Level.next, bitXor]
    rfl
  have compare : operation k .compare = Layered.compareTest k := by
    rw [operation_compare tidy (tight (Nat.le_refl _)), bitOr]
    rfl
  have not : operation k .not = Layered.notTest k := by
    rw [operation_not tidy, compare]
    rfl
  have and : operation k .and = Layered.andTest k := by
    rw [operation_eq_wordRun tidy (fun _ _ _ => ofKinds?_eq_and_iff) rfl, Level.next, not]
    rfl
  have or : operation k .or = Layered.orTest k := by
    rw [operation_eq_wordRun tidy (fun _ _ _ => ofKinds?_eq_or_iff) rfl, Level.next, and]
    rfl
  cases min with
  | or => exact or
  | and => exact and
  | not => exact not
  | compare => exact compare
  | bitOr => exact bitOr
  | bitXor => exact bitXor
  | bitAnd => exact bitAnd
  | shift => exact shift
  | sum => exact sum
  | product => exact product
  | factor => exact operation_factor tidy

theorem expression_eq_layered (tidy : Tidy k) : expression k = Layered.expression k := by
  rw [expression, Layered.expression, operation_eq_layer tidy]
  rfl

/-! ### The circle of rules -/

theorem rounds_succ (hole : Nat → String → Except Error Expr) (size : Nat) :
    rounds hole (size + 1) =
      ⟨expression (rounds hole size), operation (rounds hole size), factor (rounds hole size),
        hole⟩ := by
  simp only [rounds, expressionWithin, operationWithin, factorWithin]

theorem tidy_rounds (hole : Nat → String → Except Error Expr) (size : Nat) :
    Tidy (rounds hole size) := by
  refine ⟨rounds_quiet hole size, ?_⟩
  induction size with
  | zero => exact fun n min s e t failed => nomatch failed
  | succ size ih =>
    rw [rounds_succ]
    exact operation_ended ⟨rounds_quiet hole size, ih⟩

/-- However often they come back to each other, both sets of rules read the same. -/
theorem rounds_eq_layered (hole : Nat → String → Except Error Expr) (size : Nat) :
    rounds hole size = Layered.rounds hole size := by
  induction size with
  | zero => rfl
  | succ size ih =>
    have tidy := tidy_rounds hole size
    rw [rounds_succ, Layered.rounds, ← ih, expression_eq_layered tidy,
      funext (operation_eq_layer tidy)]

theorem readHole_eq_layered (levels : Nat) : readHole levels = Layered.readHole levels := by
  induction levels with
  | zero => rfl
  | succ levels ih =>
    funext maxDepth source
    have knots (size : Nat) : knot (readHole levels) size =
        Layered.knot (Layered.readHole levels) size := by
      rw [knot_eq_rounds, rounds_eq_layered, ih]
      rfl
    rw [readHole, Layered.readHole]
    simp only [knots] <;> rfl

theorem knot_eq_layered (levels size : Nat) :
    knot (readHole levels) size = Layered.knot (Layered.readHole levels) size := by
  rw [knot_eq_rounds, rounds_eq_layered, readHole_eq_layered]
  rfl

/-- The layered rules are what they say of each other, as long as there is room for the stream. -/
theorem layered_unfold (hole : Nat → String → Except Error Expr) {size : Nat} (fits : s.size ≤ size)
    (n : Nesting) :
    (Layered.knot hole size).expression n s =
        Layered.expression (Layered.knot hole size) n s ∧
      (∀ min, (Layered.knot hole size).operation min n s =
        Layered.layer (Layered.knot hole size) min n s) ∧
      (Layered.knot hole size).factor n s = factor (Layered.knot hole size) n s := by
  have more : Knot.Alike (size + 1) (rounds hole (size + 1)) (rounds hole (size + 1 + 1)) :=
    rounds_alike hole (Nat.le_refl _) (Nat.le_succ _)
  rw [rounds_eq_layered, rounds_eq_layered] at more
  have short := Nat.lt_succ_of_le fits
  exact ⟨(more.expression n s short).same, fun min => (more.operation min n s short).same,
    (more.factor n s short).same⟩

/-- From every place of every text, at every level and whatever the limit on nesting, climbing reads
what the rule of the level reads in the layered grammar: the same tree, up to the same token, or else
the same error. The layered rules come back to each other as they are, for there is room for as many
tokens as are left, and more of it changes nothing. What has been read ends where no operator of the
level comes next. -/
theorem operation_layered {levels room room' : Nat} {s : Stream} (fits : s.size ≤ room)
    (fits' : s.size ≤ room') (n : Nesting) :
    let layered := Layered.knot (Layered.readHole levels) room'
    (∀ min, (knot (readHole levels) room).operation min n s = Layered.layer layered min n s ∧
      ∀ e t, Layered.layer layered min n s = .ok (e, t) → Ended min t) ∧
    layered.expression n s = Layered.expression layered n s ∧
    (∀ min, layered.operation min n s = Layered.layer layered min n s) ∧
    layered.factor n s = factor layered n s := by
  intro layered
  obtain ⟨expression, operation, factor⟩ := layered_unfold (Layered.readHole levels) fits' n
  have same (min : Level) :
      (knot (readHole levels) room).operation min n s = layered.operation min n s := by
    have rooms : Knot.Alike (s.size + 1) (rounds (readHole levels) (room + 1))
        (rounds (readHole levels) (room' + 1)) :=
      rounds_alike (readHole levels) (Nat.succ_le_succ fits) (Nat.succ_le_succ fits')
    have known : layered = rounds (readHole levels) (room' + 1) :=
      (knot_eq_layered levels room').symm
    rw [known]
    exact (rooms.operation min n s (Nat.lt_succ_self _)).same
  refine ⟨fun min => ⟨(same min).trans (operation min), fun e t done => ?_⟩, expression, operation,
    factor⟩
  rw [← operation min, ← same min] at done
  exact ((tidy_rounds (readHole levels) (room + 1)).ended n min s e t done).2

/-- One of the operands of an `or` is an `or` itself, which stands in brackets, and the other one a
negated chain of two comparisons. -/
def isGrouped : Expr → Bool
  | .boolean .or [.boolean .or [_, _] _, .unary .not (.compare _ [.mk .less _, .mk .notIn _] _) _] _ =>
    true
  | _ => false

theorem operation_layered_brackets :
    ∃ tokens e t, Script.tokens (utf8 "(a or b) or not c < d not in e\n") = .ok tokens ∧
      (knot (readHole 1) tokens.length).operation .or ⟨0, 0⟩ (.ofTokens tokens) = .ok (e, t) ∧
      Layered.layer (Layered.knot (Layered.readHole 1) tokens.length) .or ⟨0, 0⟩ (.ofTokens tokens) =
        .ok (e, t) ∧ isGrouped e = true := by
  have known : ((Script.tokens (utf8 "(a or b) or not c < d not in e\n")).toOption.bind fun tokens =>
      ((knot (readHole 1) tokens.length).operation .or ⟨0, 0⟩ (.ofTokens tokens)).toOption.map
        (isGrouped ·.1)) = some true := by
    decide +kernel
  obtain ⟨tokens, found, known⟩ := Option.bind_eq_some_iff.1 known
  obtain ⟨⟨e, t⟩, done, grouped⟩ := Option.map_eq_some_iff.1 known
  have climbed := ok_of_toOption done
  have fits : (Stream.ofTokens tokens).size ≤ tokens.length := Nat.le_refl _
  have same := ((@operation_layered 1 _ _ _ fits fits ⟨0, 0⟩).1 .or).1
  exact ⟨tokens, e, t, ok_of_toOption found, climbed, same.symm.trans climbed, grouped⟩

end Grammar

end ScoreScript.Script
