import ScoreScript.Proofs.Holes.Hole
import ScoreScript.Proofs.Script.Reading

/-!
What rules make of the holes among the tokens they use. Nodes that were read but are not part of
anything yet are owed to the tree; a rule covers its tokens if their holes, and those that the
owed nodes fill, are filled by the nodes of its result (`Rule.Covers`). This passes from parts to
the whole by the combinators that rules are built from, much as in separation logic: what is owed
to the tree already does not matter to the next part.
-/

namespace ScoreScript.Script

namespace Stream

theorem rest_advance_of_eof {s : Stream} (ended : s.current.kind.isEof = true) :
    s.advance.rest = s.rest := by
  rw [advance, if_pos ended]

theorem rest_eq_cons {s : Stream} (more : s.current.kind.isEof = false) :
    s.rest = s.current :: s.advance.rest := by
  cases rest : s.rest with
  | nil =>
    rw [current, rest] at more
    cases more
  | cons first others =>
    rw [advance, if_neg (ne_true_of_eq_false more)]
    change first :: others = s.rest.headD s.finalToken :: s.rest.tail
    rw [rest]
    rfl

/-- What comes next once a token has been passed came after it before. -/
theorem current_advance {s : Stream} (more : s.current.kind.isEof = false) :
    s.advance.current = s.second := by
  rw [advance, if_neg (ne_true_of_eq_false more)]
  rfl

end Stream

namespace Rule

open Grammar

variable {hole : Nat → String → Except Error Expr} {whole : Option Knot} {α β : Type} {n : Nesting}
  {s : Stream} {owed : List Node} {rule : Rule α} {used used' : List (Token TokenKind)}

/-! ### Single tokens -/

theorem kind_of_op {kind : TokenKind} {sign : Operator}
    (found : Mark.ofKind? kind = some (.op sign)) : kind = .op sign := by
  cases kind <;> cases found
  rfl

theorem kind_of_word {kind : TokenKind} {word : Keyword}
    (found : Mark.ofKind? kind = some (.word word)) : kind = .keyword word := by
  cases kind <;> cases found
  rfl

theorem accept_found {mark : Mark} (same : Mark.ofKind? s.current.kind = some mark) :
    accept mark n s = .ok (true, s.advance) := by
  change (if (Mark.ofKind? s.current.kind == some mark) = true then _ else _ : Rule Bool) n s = _
  rw [if_pos (beq_iff_eq.2 same)]
  rfl

theorem accept_absent {mark : Mark} (other : Mark.ofKind? s.current.kind ≠ some mark) :
    accept mark n s = .ok (false, s) := by
  change (if (Mark.ofKind? s.current.kind == some mark) = true then _ else _ : Rule Bool) n s = _
  rw [if_neg (mt beq_iff_eq.1 other)]
  rfl

theorem expect_ok {mark : Mark} {a : Unit} {t : Stream} (done : expect mark n s = .ok (a, t)) :
    Mark.ofKind? s.current.kind = some mark ∧ t = s.advance := by
  obtain ⟨⟨found, u⟩, taken, done⟩ :=
    ok_of_bind (show accept mark n s >>= _ = .ok (a, t) from done)
  by_cases same : Mark.ofKind? s.current.kind = some mark
  · cases (accept_found same).symm.trans taken
    cases done
    exact ⟨same, rfl⟩
  · cases (accept_absent same).symm.trans taken
    cases done

theorem name_found {id : String} (found : s.current.kind = .name id) :
    name n s = .ok (id, s.advance) := by
  simp only [name, run_bind, look, Except.bind, found]
  rfl

theorem name_ok {id : String} {t : Stream} (done : name n s = .ok (id, t)) :
    s.current.kind = .name id ∧ t = s.advance := by
  cases found : s.current.kind with
  | name id' =>
    cases (name_found found).symm.trans done
    exact ⟨rfl, rfl⟩
  | _ =>
    simp only [name, run_bind, look, Except.bind, found] at done
    cases done

/-! ### Tokens that are used -/

/-- Tokens that rules use up: never the end of the text and, unless a whole script is read, none
that ends a line. -/
def Usable (whole : Option Knot) (used : List (Token TokenKind)) : Prop :=
  ∀ t ∈ used, t.kind.isEof = false ∧ (whole = none → t.kind.isLayout = false)

/-- The holes of the tokens that have been used, and those that owed nodes fill, are filled by the
nodes that were paid, or else they are lost, which happens in whole scripts only. -/
def Paid (hole : Nat → String → Except Error Expr) (whole : Option Knot)
    (used : List (Token TokenKind)) (owed paid : List Node) : Prop :=
  ∀ h, (h ∈ holesIn used ∨ ∃ q ∈ owed, q.Fills hole h) →
    (∃ q ∈ paid, q.Fills hole h) ∨ ∃ k ∈ whole, Lost k used h

theorem Usable.append (first : Usable whole used) (second : Usable whole used') :
    Usable whole (used ++ used') :=
  List.forall_mem_append.2 ⟨first, second⟩

namespace Paid

variable {first paid : List Node}

theorem trans (h : Paid hole whole used owed first) (h' : Paid hole whole used' first paid) :
    Paid hole whole (used ++ used') owed paid := by
  intro x here
  have later (there : x ∈ holesIn used' ∨ ∃ q ∈ first, q.Fills hole x) :
      (∃ q ∈ paid, q.Fills hole x) ∨ ∃ k ∈ whole, Lost k (used ++ used') x := by
    refine (h' x there).imp_right ?_
    rintro ⟨k, script, lost⟩
    have lost := lost.mono used []
    rw [List.append_nil] at lost
    exact ⟨k, script, lost⟩
  have before (there : x ∈ holesIn used ∨ ∃ q ∈ owed, q.Fills hole x) :
      (∃ q ∈ paid, q.Fills hole x) ∨ ∃ k ∈ whole, Lost k (used ++ used') x := by
    rcases h x there with filled | ⟨k, script, lost⟩
    · exact later (.inr filled)
    · exact .inr ⟨k, script, lost.mono [] used'⟩
  rw [holesIn_append, List.mem_append, or_assoc] at here
  rcases here with earlier | here | owing
  · exact before (.inl earlier)
  · exact later (.inl here)
  · exact before (.inr owing)

theorem frame (h : Paid hole whole used first paid) (owed : List Node) :
    Paid hole whole used (owed ++ first) (owed ++ paid) := by
  have passOn {x : Hole} (here : x ∈ holesIn used ∨ ∃ q ∈ first, q.Fills hole x) :
      (∃ q ∈ owed ++ paid, q.Fills hole x) ∨ ∃ k ∈ whole, Lost k used x := by
    refine (h x here).imp_left ?_
    rintro ⟨q, member, fills⟩
    exact ⟨q, List.mem_append_right _ member, fills⟩
  rintro x (here | ⟨q, member, fills⟩)
  · exact passOn (.inl here)
  · rcases List.mem_append.1 member with other | member
    · exact .inl ⟨q, List.mem_append_left _ other, fills⟩
    · exact passOn (.inr ⟨q, member, fills⟩)

end Paid

/-- What the rule reads from the stream covers the tokens it uses and the nodes that are owed. -/
def CoversAt (hole : Nat → String → Except Error Expr) (whole : Option Knot) (owed : List Node)
    (rule : Rule α) (s : Stream) (nodes : α → List Node) : Prop :=
  ∀ n a t, rule n s = .ok (a, t) →
    ∃ used, s.rest = used ++ t.rest ∧ Usable whole used ∧ Paid hole whole used owed (nodes a)

/-- From whatever stream. -/
def Covers (hole : Nat → String → Except Error Expr) (whole : Option Knot) (owed : List Node)
    (rule : Rule α) (nodes : α → List Node) : Prop :=
  ∀ s, CoversAt hole whole owed rule s nodes

namespace CoversAt

variable {nodes : α → List Node} {nodes' : β → List Node}

/-- Nothing is used, and what is owed is paid. -/
theorem of_unused (h : ∀ n a t, rule n s = .ok (a, t) →
      t = s ∧ ∀ q ∈ owed, ∀ x, q.Fills hole x → ∃ p ∈ nodes a, p.Fills hole x) :
    CoversAt hole whole owed rule s nodes := by
  intro n a t done
  obtain ⟨rfl, paid⟩ := h n a t done
  refine ⟨[], rfl, List.forall_mem_nil _, fun x here => .inl ?_⟩
  obtain nothing | ⟨q, member, fills⟩ := here
  · cases nothing
  · exact paid q member x fills

theorem seq {next : α → Rule β} (h : CoversAt hole whole owed rule s nodes)
    (h' : ∀ a t, CoversAt hole whole (nodes a) (next a) t nodes') :
    CoversAt hole whole owed (rule >>= next) s nodes' := by
  intro n b u done
  obtain ⟨⟨a, t⟩, first, second⟩ := ok_of_bind (show rule n s >>= _ = .ok (b, u) from done)
  obtain ⟨used, split, usable, paid⟩ := h n a t first
  obtain ⟨used', split', usable', paid'⟩ := h' a t n b u second
  exact ⟨used ++ used', by rw [split, split', List.append_assoc], usable.append usable',
    paid.trans paid'⟩

/-- What is owed besides stays owed. -/
theorem frame {first : List Node} (h : CoversAt hole whole first rule s nodes)
    (owed : List Node) : CoversAt hole whole (owed ++ first) rule s fun a => owed ++ nodes a := by
  intro n a t done
  obtain ⟨used, split, usable, paid⟩ := h n a t done
  exact ⟨used, split, usable, paid.frame owed⟩

theorem bind {next : α → Rule β} (h : CoversAt hole whole [] rule s nodes)
    (h' : ∀ a t, CoversAt hole whole (owed ++ nodes a) (next a) t nodes') :
    CoversAt hole whole owed (rule >>= next) s nodes' := by
  have held := h.frame owed
  rw [List.append_nil] at held
  exact held.seq h'

/-- A token without holes is passed. -/
theorem passed {rule' : Rule α} (plain : s.current.kind.holes = [])
    (inLine : whole = none → s.current.kind.isLayout = false)
    (same : ∀ n, rule n s = rule' n s.advance)
    (h : CoversAt hole whole owed rule' s.advance nodes) :
    CoversAt hole whole owed rule s nodes := by
  intro n a t done
  obtain ⟨used, split, usable, paid⟩ := h n a t ((same n).symm.trans done)
  by_cases ended : s.current.kind.isEof = true
  · exact ⟨used, (s.rest_advance_of_eof ended).symm.trans split, usable, paid⟩
  · have more := eq_false_of_ne_true ended
    have nothing : Paid hole whole [s.current] owed owed := by
      rintro x (here | owing)
      · rw [holesIn_cons, plain] at here
        cases here
      · exact .inl owing
    exact ⟨s.current :: used, by rw [s.rest_eq_cons more, split, List.cons_append],
      List.forall_mem_cons.2 ⟨⟨more, inLine⟩, usable⟩, nothing.trans paid⟩

theorem taken {next : Token TokenKind → Rule β} (plain : s.current.kind.holes = [])
    (inLine : whole = none → s.current.kind.isLayout = false)
    (h : ∀ t, Covers hole whole owed (next t) nodes') :
    CoversAt hole whole owed (take >>= next) s nodes' :=
  passed plain inLine (fun _ => rfl) (h s.current s.advance)

theorem ahead {next : TokenKind → Rule β}
    (h : CoversAt hole whole owed (next s.second.kind) s nodes') :
    CoversAt hole whole owed (lookAhead >>= next) s nodes' :=
  fun n => h n

/-- A mark that has been found is taken. -/
theorem takenMark {next : Token TokenKind → Rule β} {mark : Mark}
    (found : Mark.ofKind? s.current.kind = some mark)
    (h : ∀ t, Covers hole whole owed (next t) nodes') :
    CoversAt hole whole owed (take >>= next) s nodes' := by
  obtain ⟨plain, inLine⟩ : s.current.kind.holes = [] ∧ s.current.kind.isLayout = false := by
    cases kind : s.current.kind <;> rw [kind] at found <;>
      first | exact ⟨rfl, rfl⟩ | cases found
  exact taken plain (fun _ => inLine) h

/-- A name that has been found is read. -/
theorem named {next : String → Rule β} {id : String} (found : s.current.kind = .name id)
    (h : CoversAt hole whole owed (next id) s.advance nodes') :
    CoversAt hole whole owed (name >>= next) s nodes' := by
  refine passed (by rw [found]; rfl) (fun _ => by rw [found]; rfl) (fun n => ?_) h
  change (name n s >>= fun result => next result.1 n result.2) = _
  rw [name_found found]
  rfl

/-- What fills no hole need not be owed. -/
theorem forget (h : CoversAt hole whole [] rule s nodes)
    (empty : ∀ q ∈ owed, ∀ x, ¬q.Fills hole x) : CoversAt hole whole owed rule s nodes := by
  intro n a t done
  obtain ⟨used, split, usable, paid⟩ := h n a t done
  refine ⟨used, split, usable, ?_⟩
  rintro x (here | ⟨q, owing, fills⟩)
  · exact paid x (.inl here)
  · exact absurd fills (empty q owing x)

end CoversAt

namespace Covers

variable {nodes : α → List Node} {nodes' : β → List Node}

/-- What pays does so as a part of something as well. -/
theorem inside {nodes' : α → List Node} (h : Covers hole whole owed rule nodes)
    (more : ∀ a, ∀ q ∈ nodes a, ∃ p ∈ nodes' a, q = p ∨ q ∈ p.parts) :
    Covers hole whole owed rule nodes' := by
  intro s n a t done
  obtain ⟨used, split, usable, paid⟩ := h s n a t done
  refine ⟨used, split, usable, fun x here => (paid x here).imp_left ?_⟩
  rintro ⟨q, pays, fills⟩
  obtain ⟨p, there, rfl | direct⟩ := more a q pays
  · exact ⟨q, there, fills⟩
  · exact ⟨p, there, fills.of_part direct⟩

theorem mono {nodes' : α → List Node} (h : Covers hole whole owed rule nodes)
    (more : ∀ a, ∀ q ∈ nodes a, q ∈ nodes' a) : Covers hole whole owed rule nodes' :=
  h.inside fun a q pays => ⟨q, more a q pays, .inl rfl⟩

/-- Each node that is owed is in the result, or a part of one that is. -/
theorem placed {a : α} (h : ∀ q ∈ owed, ∃ p ∈ nodes a, q = p ∨ q ∈ p.parts) :
    Covers hole whole owed (Pure.pure a) nodes := by
  refine fun s => .of_unused ?_
  rintro n _ _ ⟨⟩
  refine ⟨rfl, fun q owing x fills => ?_⟩
  obtain ⟨p, there, rfl | direct⟩ := h q owing
  · exact ⟨q, there, fills⟩
  · exact ⟨p, there, fills.of_part direct⟩

theorem pure {a : α} (h : ∀ q ∈ owed, q ∈ nodes a) :
    Covers hole whole owed (Pure.pure a) nodes :=
  placed fun q owing => ⟨q, h q owing, .inl rfl⟩

/-- Where nothing is owed, anything may be returned. -/
theorem leaf {a : α} : Covers hole whole [] (Pure.pure a) nodes :=
  pure (List.forall_mem_nil _)

/-- What is owed becomes part of a node. -/
theorem node {a : α} {f : α → Node} (h : ∀ q ∈ owed, q ∈ (f a).parts) :
    Covers hole whole owed (Pure.pure a) fun a => [f a] :=
  placed fun q owing => ⟨f a, List.mem_singleton_self _, .inr (h q owing)⟩

theorem seq {next : α → Rule β} (h : Covers hole whole owed rule nodes)
    (h' : ∀ a, Covers hole whole (nodes a) (next a) nodes') :
    Covers hole whole owed (rule >>= next) nodes' :=
  fun s => (h s).seq fun a t => h' a t

theorem frame {first : List Node} (h : Covers hole whole first rule nodes) (owed : List Node) :
    Covers hole whole (owed ++ first) rule fun a => owed ++ nodes a :=
  fun s => (h s).frame owed

theorem bind {next : α → Rule β} (h : Covers hole whole [] rule nodes)
    (h' : ∀ a, Covers hole whole (owed ++ nodes a) (next a) nodes') :
    Covers hole whole owed (rule >>= next) nodes' :=
  fun s => (h s).bind fun a t => h' a t

/-- A rule that reads nothing that could hold a value. -/
theorem skip {next : α → Rule β} (h : Covers hole whole [] rule fun _ => [])
    (h' : ∀ a, Covers hole whole owed (next a) nodes') :
    Covers hole whole owed (rule >>= next) nodes' :=
  h.bind fun a => by
    rw [List.append_nil]
    exact h' a

theorem map {f : α → β} (h : Covers hole whole owed rule fun a => nodes' (f a)) :
    Covers hole whole owed (f <$> rule) nodes' := by
  intro s n b u done
  obtain ⟨⟨a, t⟩, first, ⟨⟩⟩ := ok_of_bind (show rule n s >>= _ = .ok (b, u) from done)
  exact h s n a u first

theorem ite {c : Prop} [Decidable c] {first second : Rule α}
    (h : Covers hole whole owed first nodes) (h' : Covers hole whole owed second nodes) :
    Covers hole whole owed (if c then first else second) nodes := by
  split
  · exact h
  · exact h'

/-! ### Single tokens -/

/-- A rule that only looks ahead. -/
theorem of_quiet (h : ∀ n s a t, rule n s = .ok (a, t) → t = s) :
    Covers hole whole [] rule fun _ => [] :=
  fun s => .of_unused fun n a t done => ⟨h n s a t done, nofun⟩

theorem look {next : TokenKind → Rule β}
    (h : ∀ s, CoversAt hole whole owed (next s.current.kind) s nodes') :
    Covers hole whole owed (look >>= next) nodes' :=
  fun s n => h s n

theorem here : Covers hole whole [] here fun _ => [] :=
  of_quiet fun _ _ _ _ done => by cases done; rfl

theorem spanFrom {start : Pos} : Covers hole whole [] (spanFrom start) fun _ => [] :=
  of_quiet fun _ _ _ _ done => by cases done; rfl

theorem isNext {mark : Mark} : Covers hole whole [] (isNext mark) fun _ => [] :=
  of_quiet fun _ _ _ _ done => by cases done; rfl

theorem fail {cause : GrammarError} {span : Span} :
    Covers hole whole owed (fail cause span : Rule α) nodes := by
  rintro s n _ _ ⟨⟩

theorem unexpected {wanted : String} :
    Covers hole whole owed (unexpected wanted : Rule α) nodes := by
  rintro s n _ _ ⟨⟩

/-- A computation that reads nothing, and of which it is known what it comes to. -/
theorem lift {result : Except Error α}
    (h : ∀ a, result = .ok a → ∀ q ∈ owed, ∀ x, q.Fills hole x → ∃ p ∈ nodes a, p.Fills hole x) :
    Covers hole whole owed (lift result) nodes := by
  refine fun s => .of_unused fun n a t done => ?_
  cases result with
  | error e => cases done
  | ok a =>
    cases done
    exact ⟨rfl, h a rfl⟩

/-- It is known in either case whether the mark comes next. -/
theorem ifNext {next : Bool → Rule β} {mark : Mark}
    (found : ∀ s, Mark.ofKind? s.current.kind = some mark →
      CoversAt hole whole owed (next true) s nodes')
    (absent : Covers hole whole owed (next false) nodes') :
    Covers hole whole owed (Rule.isNext mark >>= next) nodes' := by
  intro s n b u done
  change next (Mark.ofKind? s.current.kind == some mark) n s = .ok (b, u) at done
  by_cases same : Mark.ofKind? s.current.kind = some mark
  · rw [beq_iff_eq.2 same] at done
    exact found s same n b u done
  · rw [beq_false_of_ne same] at done
    exact absent s n b u done

theorem accept {mark : Mark} : Covers hole whole [] (accept mark) fun _ => [] :=
  ifNext (fun _ found => .takenMark found fun _ => leaf) leaf

theorem expect {mark : Mark} : Covers hole whole [] (expect mark) fun _ => [] :=
  accept.skip fun _ => .ite (.leaf) .unexpected

theorem name : Covers hole whole [] name fun _ => [] := by
  refine .look fun s => ?_
  split
  · rename_i found
    exact .taken (by rw [found]; rfl) (fun _ => by rw [found]; rfl) fun _ => .leaf
  · exact unexpected s

/-! ### Nesting and repetition -/

theorem nested (h : Covers hole whole owed rule nodes) :
    Covers hole whole owed (nested rule) nodes := by
  intro s n a t done
  unfold Rule.nested at done
  split at done
  · exact h s _ a t done
  · cases done

theorem when? {present : Rule Bool} (p : Covers hole whole [] present fun _ => [])
    (h : Covers hole whole [] rule nodes) :
    Covers hole whole [] (when? present rule) fun a? => a?.toList.flatMap nodes :=
  p.skip fun _ => .ite (map (h.mono fun a q member => by simpa using member)) (.leaf)

/-- The loop owes what has been read so far. -/
theorem loop (nodes : α → List Node) {round : α → Rule (Option α)}
    (h : ∀ a, Covers hole whole (nodes a) (round a) fun b? => nodes (b?.getD a)) {a : α} :
    Covers hole whole (nodes a) (loop round a) nodes := by
  intro s
  induction size : s.size using Nat.strongRecOn generalizing a s with
  | ind m ih =>
    intro n c u done
    have one := h a s n
    rw [Rule.loop] at done
    split at done
    · cases done
    · rename_i first
      cases done
      exact one _ _ first
    · rename_i b after first
      obtain ⟨used, split, usable, paid⟩ := one _ _ first
      split at done
      · rename_i less
        obtain ⟨used', split', usable', paid'⟩ :=
          ih after.size (size ▸ less) after rfl n c u done
        exact ⟨used ++ used', by rw [split, split', List.append_assoc], usable.append usable',
          paid.trans paid'⟩
      · cases done
        exact ⟨used, split, usable, paid⟩

theorem loopFrom {round : α → Rule (Option α)} {a : α} (start : nodes a = [])
    (h : ∀ a, Covers hole whole (nodes a) (round a) fun b? => nodes (b?.getD a)) :
    Covers hole whole [] (Rule.loop round a) nodes :=
  start ▸ loop nodes h

theorem mem_flatMap_reverse {items : List α} {q : Node} (inside : q ∈ items.flatMap nodes) :
    q ∈ items.reverse.flatMap nodes := by
  simpa only [List.mem_flatMap, List.mem_reverse] using inside

theorem many {round : Rule (Option α)}
    (h : Covers hole whole [] round fun a? => a?.toList.flatMap nodes) :
    Covers hole whole [] (many round) fun items => items.flatMap nodes := by
  have rounds : Covers hole whole [] (Rule.loop (fun items => do
      return (← round).map (· :: items)) []) fun items => items.flatMap nodes := by
    refine loopFrom rfl fun items => ?_
    refine h.bind fun a? => .pure fun q inside => ?_
    cases a? with
    | none => simpa using inside
    | some a =>
      rw [Option.toList_some, List.flatMap_singleton, List.mem_append, or_comm] at inside
      rwa [Option.map_some, Option.getD_some, List.flatMap_cons, List.mem_append]
  exact rounds.seq fun items => .pure fun q inside => mem_flatMap_reverse inside

theorem separated (h : Covers hole whole [] rule nodes) :
    Covers hole whole [] (separated rule) fun items => items.flatMap nodes :=
  h.bind fun _ => (many (when? accept h)).bind fun _ => .pure fun _ inside => by
    rwa [List.nil_append] at inside

variable {isEnd : Rule Bool}

theorem addFurther {add : α → Rule α} (e : Covers hole whole [] isEnd fun _ => [])
    (h : ∀ a, Covers hole whole (nodes a) (add a) nodes) {a : α} :
    Covers hole whole (nodes a) (addFurther isEnd add a) nodes :=
  loop nodes fun a => accept.skip fun _ =>
    .ite (e.skip fun _ => .ite (.pure fun _ => id) (map (h a))) (.pure fun _ => id)

theorem addItems {add : α → Rule α} (e : Covers hole whole [] isEnd fun _ => [])
    (h : ∀ a, Covers hole whole (nodes a) (add a) nodes) {a : α} (start : nodes a = []) :
    Covers hole whole [] (addItems isEnd add a) nodes := by
  refine e.skip fun _ => .ite (.leaf) ?_
  refine Covers.bind (start ▸ h a) fun b => ?_
  rw [List.nil_append]
  exact addFurther e h

/-- Add an item to those before it, last first. -/
theorem addItem (h : Covers hole whole [] rule nodes) (items : List α) :
    Covers hole whole (items.flatMap nodes) (do return (← rule) :: items) fun items =>
      items.flatMap nodes :=
  h.bind fun a => .pure fun q inside => by
    rwa [List.flatMap_cons, List.mem_append, or_comm, ← List.mem_append]

theorem furtherItems (e : Covers hole whole [] isEnd fun _ => [])
    (h : Covers hole whole [] rule nodes) {first : α} :
    Covers hole whole (nodes first) (furtherItems isEnd rule first) fun items =>
      items.flatMap nodes := by
  have rounds : Covers hole whole ([first].flatMap nodes) (Rule.addFurther isEnd
      (fun items => do return (← rule) :: items) [first]) fun items => items.flatMap nodes :=
    addFurther e (addItem h)
  rw [List.flatMap_singleton] at rounds
  exact rounds.seq fun items => .pure fun q inside => mem_flatMap_reverse inside

theorem items (e : Covers hole whole [] isEnd fun _ => []) (h : Covers hole whole [] rule nodes) :
    Covers hole whole [] (items isEnd rule) fun items => items.flatMap nodes :=
  bind (addItems e (addItem h) rfl) fun _ => .pure fun _ inside => mem_flatMap_reverse inside

/-! ### Where nothing is kept, for there is nothing -/

theorem none_of_flatMap {rule : Rule (List α)}
    (h : Covers hole whole [] rule fun items => items.flatMap fun _ => []) :
    Covers hole whole [] rule fun _ => [] :=
  h.mono (by simp)

theorem whenNone {present : Rule Bool} (p : Covers hole whole [] present fun _ => [])
    (h : Covers hole whole [] rule fun _ => []) :
    Covers hole whole [] (Rule.when? present rule) fun _ => [] :=
  p.skip fun _ => .ite (map h) .leaf

theorem manyNone {round : Rule (Option α)} (h : Covers hole whole [] round fun _ => []) :
    Covers hole whole [] (Rule.many round) fun _ => [] :=
  none_of_flatMap (many (h.mono fun _ _ none => nomatch none))

theorem separatedNone (h : Covers hole whole [] rule fun _ => []) :
    Covers hole whole [] (Rule.separated rule) fun _ => [] :=
  none_of_flatMap (separated h)

end Covers

end Rule

end ScoreScript.Script
