import ScoreScript.Proofs.Holes.Alone
import ScoreScript.Proofs.Placing.Node
import ScoreScript.Proofs.Placing.Tokens

/-!
Where rules put the nodes that they read. What has been read so far is a series of nodes, and the
next node stands after the last token that was used, and not before the next token begins
(`Stands`). A rule keeps to that if all it yields has a form that declarative scripts consist of
(`Rule.Places`); this passes from parts to the whole by the combinators that rules are built from.
Nothing is asked of a rule that yields something else (`Rule.Foreign`): the places of such nodes
need not be faithful, as in the holes of a format string.
-/

namespace ScoreScript.Script

/-! ### Tokens that are left -/

namespace Stream

variable {text : List UInt8} {s : Stream}

/-- All tokens that can still be read. The end of the text can be read again and again. -/
def left (s : Stream) : List (Token TokenKind) :=
  s.rest ++ [s.finalToken]

/-- The tokens that are left have places in the text, in order, after the last one that was
used. -/
structure Sound (text : List UInt8) (s : Stream) : Prop where
  tokens : InOrder text s.left
  after : ∀ t ∈ s.left, StandsAfter s.previous.offset t
  previous : 0 < s.previous.offset → s.previous.IsIn text

/-- Where a node that is read next may begin. -/
def front (s : Stream) : Pos :=
  if s.current.span.start.offset < s.previous.offset then s.previous else s.current.span.start

theorem offset_front (s : Stream) :
    s.front.offset = max s.previous.offset s.current.span.start.offset := by
  unfold front
  split <;> omega

theorem left_eq_cons (s : Stream) : ∃ later, s.left = s.current :: later := by
  unfold left current
  cases s.rest with
  | nil => exact ⟨[], rfl⟩
  | cons first rest => exact ⟨rest ++ [s.finalToken], rfl⟩

theorem mem_left_current (s : Stream) : s.current ∈ s.left := by
  obtain ⟨later, left⟩ := s.left_eq_cons
  rw [left]
  exact List.mem_cons_self

theorem previous_advance (s : Stream) : s.advance.previous = s.current.span.stop := by
  unfold advance
  split <;> rfl

theorem left_advance_of_eof (ended : s.current.kind.isEof = true) : s.advance.left = s.left := by
  rw [advance, if_pos ended]
  rfl

theorem left_advance (more : s.current.kind.isEof = false) :
    s.left = s.current :: s.advance.left := by
  have final : s.advance.finalToken = s.finalToken := by
    rw [advance, if_neg (ne_true_of_eq_false more)]
    rfl
  rw [left, left, final, rest_eq_cons more, List.cons_append]

namespace Sound

theorem placed (h : s.Sound text) : Placed text s.current :=
  h.tokens.placed _ s.mem_left_current

theorem follows (h : s.Sound text) : StandsAfter s.previous.offset s.current :=
  h.after _ s.mem_left_current

theorem place_front (h : s.Sound text) : s.front.IsIn text := by
  unfold front
  split
  · rename_i less
    exact h.previous (Nat.zero_lt_of_lt less)
  · exact h.placed.start

/-- A token that is passed ends after all that was used before it, wherever it begins. -/
theorem front_le (h : s.Sound text) : s.front.offset ≤ s.current.span.stop.offset :=
  s.offset_front ▸ Nat.max_le.2 ⟨h.follows.stop, h.placed.le⟩

theorem front_eq (h : s.Sound text) (solid : s.current.kind.isSolid = true) :
    s.front = s.current.span.start :=
  if_neg (Nat.not_lt.2 (h.follows.solid solid))

theorem advance (h : s.Sound text) : s.advance.Sound text := by
  have placed := h.placed
  by_cases ended : s.current.kind.isEof = true
  · refine ⟨s.left_advance_of_eof ended ▸ h.tokens, ?_, fun _ => s.previous_advance ▸ placed.stop⟩
    obtain ⟨later, left⟩ := s.left_eq_cons
    have tokens := h.tokens.pairwise
    rw [s.left_advance_of_eof ended, s.previous_advance]
    rw [left] at tokens ⊢
    have later := (List.pairwise_cons.1 tokens).1
    refine List.forall_mem_cons.2 ⟨⟨Nat.le_refl _, fun solid => ?_⟩, later⟩
    rw [TokenKind.isSolid, ended, Bool.not_true, Bool.and_false] at solid
    cases solid
  · have tokens := h.tokens
    rw [left_advance (eq_false_of_ne_true ended)] at tokens
    obtain ⟨later, pairwise⟩ := List.pairwise_cons.1 tokens.pairwise
    exact ⟨⟨fun t inside => tokens.placed t (List.mem_cons_of_mem _ inside), pairwise⟩,
      s.previous_advance ▸ later, fun _ => s.previous_advance ▸ placed.stop⟩

end Sound

end Stream

/-! ### Rules -/

namespace Rule

open Grammar

variable {text : List UInt8} {α β : Type} {p p' : Nat} {f : Pos} {s t : Stream}
  {before owed : List Node} {rule : Rule α}

/-- A state of reading: so much text was used at least, from a place on the nodes that were read are
a series, and no later one begins before it. -/
structure Stands (text : List UInt8) (p : Nat) (f : Pos) (s : Stream) (nodes : List Node) :
    Prop where
  sound : s.Sound text
  used : p ≤ s.previous.offset
  place : f.IsIn text
  front : f.offset ≤ s.front.offset
  series : Series text f.offset s.previous.offset nodes

namespace Stands

variable {nodes nodes' : List Node}

theorem here (h : s.Sound text) : Stands text s.previous.offset s.front s [] :=
  ⟨h, Nat.le_refl _, h.place_front, Nat.le_refl _, .nil⟩

theorem weaken (h : Stands text p' f s nodes) (le : p ≤ p') : Stands text p f s nodes :=
  { h with used := Nat.le_trans le h.used }

theorem previous_le (s : Stream) : s.previous.offset ≤ s.front.offset :=
  s.offset_front ▸ Nat.le_max_left _ _

/-- A token is passed. -/
theorem advance (h : Stands text p f s nodes) : Stands text p f s.advance nodes := by
  have passed : s.front.offset ≤ s.advance.previous.offset :=
    s.previous_advance ▸ h.sound.front_le
  have later := Nat.le_trans (previous_le s) passed
  exact ⟨h.sound.advance, Nat.le_trans h.used later, h.place,
    Nat.le_trans h.front (Nat.le_trans passed (previous_le s.advance)),
    h.series.mono (Nat.le_refl _) later⟩

/-- A token that is written where the series begins takes up some of the text. -/
theorem begun (h : Stands text p s.current.span.start s nodes)
    (solid : s.current.kind.isSolid = true) :
    Stands text (max p (s.current.span.start.offset + 1)) s.current.span.start s.advance nodes :=
  { h.advance with
    used := Nat.max_le.2 ⟨h.advance.used, s.previous_advance ▸ h.sound.placed.solid solid⟩ }

/-- What is read from here on comes after what was read before. -/
theorem append (h : Stands text p f s nodes)
    (h' : Stands text s.previous.offset s.front t nodes') :
    Stands text p f t (nodes ++ nodes') :=
  ⟨h'.sound, Nat.le_trans h.used h'.used, h.place, Nat.le_trans h.front h'.front,
    h.series.append h'.series h.front (previous_le s) h'.used⟩

end Stands

/-- What the rule reads from the stream begins with a token that is written. -/
def OpensAt (s : Stream) (rule : Rule α) : Prop :=
  ∀ n r, rule n s = .ok r → s.current.kind.isSolid = true

namespace OpensAt

theorem of_kind {kind : TokenKind} (found : s.current.kind = kind) (solid : kind.isSolid = true) :
    OpensAt s rule := by
  intro n r done
  rwa [found]

theorem of_begins (h : Begins rule) : OpensAt s rule := by
  intro n r done
  have starts := h s n r done
  cases kind : s.current.kind <;> rw [kind] at starts <;> first | rfl | cases starts

theorem here {next : Pos → Rule β} (h : OpensAt s (next s.current.span.start)) :
    OpensAt s (Rule.here >>= next) :=
  fun n r done => h n r done

theorem look {next : TokenKind → Rule β} (h : OpensAt s (next s.current.kind)) :
    OpensAt s (look >>= next) :=
  fun n r done => h n r done

end OpensAt

/-- If all nodes that the rule yields are simple, they are those that were there before and
a series that takes up the nodes that were owed. -/
def AppendsAt (text : List UInt8) (before : List Node) (p : Nat) (f : Pos) (owed : List Node)
    (rule : Rule α) (s : Stream) (nodes : α → List Node) : Prop :=
  ∀ n a t, rule n s = .ok (a, t) → (∀ q ∈ nodes a, q.Simple) →
    ∃ added, nodes a = before ++ added ∧ (∀ q ∈ owed, q.Simple) ∧
      (Stands text p f s owed → Stands text p f t added)

/-- From whatever stream. -/
def Appends (text : List UInt8) (before : List Node) (p : Nat) (f : Pos) (owed : List Node)
    (rule : Rule α) (nodes : α → List Node) : Prop :=
  ∀ s, AppendsAt text before p f owed rule s nodes

/-- The rule reads a series of nodes from wherever it begins. -/
def Places (text : List UInt8) (rule : Rule α) (nodes : α → List Node) : Prop :=
  ∀ p f, Appends text [] p f [] rule nodes

/-- What the rule yields is never all simple. -/
def Foreign (rule : Rule α) (nodes : α → List Node) : Prop :=
  ∀ n s a t, rule n s = .ok (a, t) → ∃ q ∈ nodes a, ¬q.Simple

namespace Foreign

variable {nodes : α → List Node} {nodes' : β → List Node}

theorem pure {a : α} (h : ∃ q ∈ nodes a, ¬q.Simple) : Foreign (Pure.pure a) nodes := by
  rintro _ _ _ _ ⟨⟩
  exact h

theorem expr {e : Expr} (h : (Node.expr e).isSimple = false) :
    Foreign (Pure.pure e) fun e => [.expr e] :=
  pure ⟨_, List.mem_singleton_self _, Node.not_simple h⟩

theorem stmt {s : Stmt} (h : (Node.stmt s).isSimple = false) :
    Foreign (Pure.pure s) fun s => [.stmt s] :=
  pure ⟨_, List.mem_singleton_self _, Node.not_simple h⟩

/-- An expression in place of another. -/
theorem instead {e other : Expr} (h : (Node.expr e).isSimple = false) :
    Foreign (Pure.pure (some e)) fun e? => [.expr (e?.getD other)] :=
  pure ⟨_, List.mem_singleton_self _, Node.not_simple h⟩

theorem fail {cause : GrammarError} {span : Span} : Foreign (fail cause span : Rule α) nodes :=
  fun _ _ _ _ failed => nomatch failed

theorem unexpected {wanted : String} : Foreign (unexpected wanted : Rule α) nodes :=
  fun _ _ _ _ failed => nomatch failed

/-- It does not matter what comes before. -/
theorem bind {next : α → Rule β} (h : ∀ a, Foreign (next a) nodes') :
    Foreign (rule >>= next) nodes' := by
  intro n s b u done
  obtain ⟨⟨a, t⟩, -, rest⟩ := ok_of_bind (show rule n s >>= _ = .ok (b, u) from done)
  exact h a n t b u rest

theorem ite {c : Prop} [Decidable c] {other : Rule α} (h : Foreign rule nodes)
    (h' : Foreign other nodes) : Foreign (if c then rule else other) nodes := by
  split
  · exact h
  · exact h'

theorem nested (h : Foreign rule nodes) : Foreign (nested rule) nodes := by
  intro n s a t done
  unfold Rule.nested at done
  split at done
  · exact h _ s a t done
  · cases done

theorem adds (h : Foreign rule nodes) : Appends text before p f owed rule nodes := by
  intro s n a t done inside
  obtain ⟨q, member, outside⟩ := h n s a t done
  exact absurd (inside q member) outside

end Foreign

namespace AppendsAt

variable {nodes : α → List Node} {nodes' : β → List Node}

theorem pure {a : α} (same : nodes a = before ++ owed) :
    AppendsAt text before p f owed (Pure.pure a) s nodes := by
  rintro n _ _ ⟨⟩ inside
  rw [same] at inside
  exact ⟨owed, same, (List.forall_mem_append.1 inside).2, id⟩

theorem seq {next : α → Rule β} (h : AppendsAt text [] p f owed rule s nodes)
    (h' : ∀ a, Appends text before p f (nodes a) (next a) nodes') :
    AppendsAt text before p f owed (rule >>= next) s nodes' := by
  intro n b u done inside
  obtain ⟨⟨a, t⟩, first, rest⟩ := ok_of_bind (show rule n s >>= _ = .ok (b, u) from done)
  obtain ⟨added', split, inside', stands'⟩ := h' a t n b u rest inside
  obtain ⟨added, same, inside, stands⟩ := h n a t first inside'
  exact ⟨added', split, inside, fun start => stands' (same ▸ stands start)⟩

/-- What is owed is a series with what is read. -/
theorem frame (h : ∀ p f, AppendsAt text (before ++ owed) p f [] rule s nodes) :
    AppendsAt text before p f owed rule s nodes := by
  intro n a t done inside
  obtain ⟨added, split, -, stands⟩ := h s.previous.offset s.front n a t done inside
  rw [List.append_assoc] at split
  rw [split] at inside
  have owing := (List.forall_mem_append.1 (List.forall_mem_append.1 inside).2).1
  exact ⟨_, split, owing, fun start => start.append (stands (.here start.sound))⟩

/-- What was there before comes first. -/
theorem after (h : AppendsAt text [] p f owed rule s nodes) (before : List Node) :
    AppendsAt text before p f owed rule s fun a => before ++ nodes a := by
  intro n a t done inside
  obtain ⟨added, split, rest⟩ := h n a t done (List.forall_mem_append.1 inside).2
  exact ⟨added, congrArg (before ++ ·) split, rest⟩

theorem bind {next : α → Rule β} (h : ∀ p f, AppendsAt text [] p f [] rule s nodes)
    (h' : ∀ a, Appends text before p f (owed ++ nodes a) (next a) nodes') :
    AppendsAt text before p f owed (rule >>= next) s nodes' :=
  seq (frame fun p f => (h p f).after owed) h'

/-- A token is passed. -/
theorem passed {rule' : Rule α} (same : ∀ n, rule n s = rule' n s.advance)
    (h : AppendsAt text before p f owed rule' s.advance nodes) :
    AppendsAt text before p f owed rule s nodes := by
  intro n a t done inside
  obtain ⟨added, split, inside, stands⟩ := h n a t ((same n).symm.trans done) inside
  exact ⟨added, split, inside, fun start => stands start.advance⟩

/-- A token is passed that is written where the series begins. -/
theorem begun {rule' : Rule α} (solid : s.current.kind.isSolid = true)
    (same : ∀ n a t, rule n s = .ok (a, t) → rule' n s.advance = .ok (a, t))
    (h : ∀ p, s.current.span.start.offset < p →
      Appends text before p s.current.span.start owed rule' nodes) :
    AppendsAt text before p s.current.span.start owed rule s nodes := by
  intro n a t done inside
  obtain ⟨added, split, inside, stands⟩ :=
    h (max p (s.current.span.start.offset + 1)) (by omega) _ n a t (same n a t done) inside
  refine ⟨added, split, inside, fun start => ?_⟩
  exact (stands (start.begun solid)).weaken (Nat.le_max_left _ _)

theorem taken {next : Token TokenKind → Rule β} (solid : s.current.kind.isSolid = true)
    (h : ∀ p, s.current.span.start.offset < p →
      Appends text before p s.current.span.start owed (next s.current) nodes') :
    AppendsAt text before p s.current.span.start owed (take >>= next) s nodes' :=
  begun solid (fun _ _ _ => id) h

/-- A mark without which nothing is read. -/
theorem expected {next : Unit → Rule β} {mark : Mark}
    (h : ∀ p, s.current.span.start.offset < p →
      Appends text before p s.current.span.start owed (next ()) nodes') :
    AppendsAt text before p s.current.span.start owed (expect mark >>= next) s nodes' := by
  intro n b u done
  obtain ⟨⟨a, t⟩, first, rest⟩ := ok_of_bind (show expect mark n s >>= _ = .ok (b, u) from done)
  obtain ⟨found, rfl⟩ := expect_ok first
  have solid : s.current.kind.isSolid = true := by
    cases kind : s.current.kind <;> rw [kind] at found <;> first | rfl | cases found
  have there : AppendsAt text before p s.current.span.start owed
      (take >>= fun _ => next ()) s nodes' :=
    taken solid h
  exact there n b u rest

/-- A token that is a node by itself. -/
theorem token {node : Token TokenKind → α} {toNode : α → Node}
    (solid : s.current.kind.isSolid = true) (parts : (toNode (node s.current)).parts = [])
    (span : (toNode (node s.current)).span = s.current.span) :
    AppendsAt text [] p f [] (do return node (← take)) s fun a => [toNode a] := by
  rintro n _ _ ⟨⟩ -
  refine ⟨_, rfl, List.forall_mem_nil _, fun start => ?_⟩
  have here := start.sound.placed.span solid
  rw [← span] at here
  have series := Series.node (parts ▸ .nil) here
  refine { start.advance with series := series.mono ?_ ?_ }
  · rw [span, ← start.sound.front_eq solid]
    exact start.front
  · exact Nat.le_of_eq (by rw [span, s.previous_advance])

theorem look {next : TokenKind → Rule β}
    (h : AppendsAt text before p f owed (next s.current.kind) s nodes') :
    AppendsAt text before p f owed (look >>= next) s nodes' :=
  fun n => h n

theorem ahead {next : TokenKind → Rule β}
    (h : AppendsAt text before p f owed (next s.second.kind) s nodes') :
    AppendsAt text before p f owed (lookAhead >>= next) s nodes' :=
  fun n => h n

/-- A rule begins here, with a token that is written. All that it reads comes after where that
token begins. -/
theorem start {next : Pos → Rule β} (solid : s.current.kind.isSolid = true)
    (h : ∀ p, AppendsAt text (before ++ owed) p s.current.span.start []
      (next s.current.span.start) s nodes') :
    AppendsAt text before p f owed (here >>= next) s nodes' := by
  refine frame fun p f n b u done inside => ?_
  obtain ⟨added, split, -, stands⟩ := h p n b u done inside
  refine ⟨added, split, List.forall_mem_nil _, fun start => ?_⟩
  have front := start.front
  have same := start.sound.front_eq solid
  have stands := stands { start with
    place := same ▸ start.sound.place_front
    front := same ▸ Nat.le_refl _
    series := .nil }
  rw [same] at front
  exact { stands with
    place := start.place
    front := Nat.le_trans front stands.front
    series := stands.series.mono front (Nat.le_refl _) }

end AppendsAt

namespace Appends

variable {nodes : α → List Node} {nodes' : β → List Node}

theorem seq {next : α → Rule β} (h : Appends text [] p f owed rule nodes)
    (h' : ∀ a, Appends text before p f (nodes a) (next a) nodes') :
    Appends text before p f owed (rule >>= next) nodes' :=
  fun s => (h s).seq h'

theorem bind {next : α → Rule β} (h : Places text rule nodes)
    (h' : ∀ a, Appends text before p f (owed ++ nodes a) (next a) nodes') :
    Appends text before p f owed (rule >>= next) nodes' :=
  fun s => .bind (fun p f => h p f s) h'

/-- A rule that reads no node. -/
theorem skip {next : α → Rule β} (h : Places text rule fun _ => [])
    (h' : ∀ a, Appends text before p f owed (next a) nodes') :
    Appends text before p f owed (rule >>= next) nodes' :=
  bind h fun a => by
    rw [List.append_nil]
    exact h' a

theorem pure {a : α} (same : nodes a = before ++ owed) :
    Appends text before p f owed (Pure.pure a) nodes :=
  fun _ => .pure same

theorem map {g : α → β} (h : Appends text before p f owed rule fun a => nodes' (g a)) :
    Appends text before p f owed (g <$> rule) nodes' := by
  intro s n b u done
  obtain ⟨⟨a, t⟩, first, ⟨⟩⟩ := ok_of_bind (show rule n s >>= _ = .ok (b, u) from done)
  exact h s n a u first

theorem ite {c : Prop} [Decidable c] {other : Rule α} (h : Appends text before p f owed rule nodes)
    (h' : Appends text before p f owed other nodes) :
    Appends text before p f owed (if c then rule else other) nodes := by
  split
  · exact h
  · exact h'

theorem unexpected {wanted : String} :
    Appends text before p f owed (unexpected wanted : Rule α) nodes :=
  fun _ _ _ _ failed => nomatch failed

theorem fail {cause : GrammarError} {span : Span} :
    Appends text before p f owed (fail cause span : Rule α) nodes :=
  fun _ _ _ _ failed => nomatch failed

theorem look {next : TokenKind → Rule β}
    (h : ∀ s, AppendsAt text before p f owed (next s.current.kind) s nodes') :
    Appends text before p f owed (look >>= next) nodes' :=
  fun s => (h s).look

/-- A rule that only begins here with a token that is written. -/
theorem opening {next : Pos → Rule β}
    (opens : ∀ s, OpensAt s (here >>= next))
    (h : ∀ s p, s.current.kind.isSolid = true → AppendsAt text (before ++ owed) p
      s.current.span.start [] (next s.current.span.start) s nodes') :
    Appends text before p f owed (here >>= next) nodes' := by
  intro s n b u done
  have solid := opens s n _ done
  exact AppendsAt.start solid (fun p => h s p solid) n b u done

/-- If there are nodes, some of the text has been used. -/
theorem started (some : owed ≠ [])
    (h : ∀ p, f.offset < p → Appends text before p f owed rule nodes) :
    Appends text before p f owed rule nodes := by
  intro s n a t done inside
  obtain ⟨added, split, inside, stands⟩ :=
    h (max p (f.offset + 1)) (by omega) s n a t done inside
  refine ⟨added, split, inside, fun start => (stands ?_).weaken (Nat.le_max_left _ _)⟩
  exact { start with used := Nat.max_le.2 ⟨start.used, start.series.lt some⟩ }

/-- What was read since a place becomes the parts of a node. -/
theorem spanned {make : Span → α} {part : Span → Node} (less : f.offset < p)
    (split : ∀ span, nodes (make span) = before ++ [part span])
    (parts : ∀ span, (part span).parts = owed) (span : ∀ span, (part span).span = span) :
    Appends text before p f owed (do return make (← spanFrom f)) nodes := by
  rintro s n _ _ ⟨⟩ inside
  rw [split] at inside
  have own := (List.forall_mem_append.1 inside).2 _ (List.mem_singleton_self _)
  have all := (Node.simple_iff.1 own).2
  rw [parts] at all
  refine ⟨_, split _, all, fun start => { start with series := ?_ }⟩
  have used := Nat.lt_of_lt_of_le less start.used
  have later := Pos.later_of_gt used
  have series := @Series.node text (part ⟨f, s.previous.later f⟩)
  rw [span, parts, later] at series
  rw [later]
  exact series start.series ⟨start.place, start.sound.previous (Nat.zero_lt_of_lt used), used⟩

theorem nested (h : Appends text before p f owed rule nodes) :
    Appends text before p f owed (nested rule) nodes := by
  intro s n a t done
  unfold Rule.nested at done
  split at done
  · exact h s _ a t done
  · cases done

/-- The loop owes what has been read so far. -/
theorem loop (nodes : α → List Node) {round : α → Rule (Option α)}
    (h : ∀ a, Appends text [] p f (nodes a) (round a) fun b? => nodes (b?.getD a)) {a : α} :
    Appends text [] p f (nodes a) (loop round a) nodes := by
  intro s
  induction size : s.size using Nat.strongRecOn generalizing a s with
  | ind m ih =>
    intro n c u done inside
    have one := h a s n
    rw [Rule.loop] at done
    split at done
    · cases done
    · rename_i first
      cases done
      exact one _ _ first inside
    · rename_i b after first
      split at done
      · rename_i less
        obtain ⟨added', split, inside', stands'⟩ :=
          ih after.size (size ▸ less) after rfl n c u done inside
        obtain ⟨added, same, inside, stands⟩ := one _ _ first inside'
        have same : nodes b = added := same
        exact ⟨added', split, inside, fun start => stands' (same ▸ stands start)⟩
      · cases done
        exact one _ _ first inside

/-- The first round of a loop takes a token that is written. -/
theorem loop_taken {round : α → Rule (Option α)} {a b : α} {n : Nesting}
    (solid : s.current.kind.isSolid = true)
    (first : ∀ b? u, round a n s = .ok (b?, u) → b?.isSome = true ∧ u = s.advance)
    (h : ∀ b, Places text (Rule.loop round b) fun _ => [])
    (done : Rule.loop round a n s = .ok (b, t))
    (start : Stands text p s.current.span.start s []) :
    Stands text (max p (s.current.span.start.offset + 1)) s.current.span.start t [] := by
  rw [Rule.loop] at done
  split at done
  · cases done
  · rename_i one
    cases (first _ _ one).1
  · rename_i c after one
    obtain ⟨-, rfl⟩ := first _ _ one
    split at done
    · obtain ⟨added, none, -, stands⟩ := h c _ _ _ n b t done (List.forall_mem_nil _)
      have none : [] = added := none
      exact none ▸ stands (start.begun solid)
    · cases done
      exact start.begun solid

/-- Add an item to those before it, last first. -/
theorem addItem (h : Places text rule nodes) (items : List α) :
    Appends text [] p f (items.reverse.flatMap nodes) (do return (← rule) :: items) fun items =>
      items.reverse.flatMap nodes :=
  bind h fun a => pure (by simp)

end Appends

namespace Places

variable {nodes : α → List Node} {nodes' : β → List Node}

/-- A rule that only looks ahead. -/
theorem of_quiet (h : ∀ n s a t, rule n s = .ok (a, t) → t = s) :
    Places text rule fun _ => [] := by
  intro p f s n a t done _
  cases h n s a t done
  exact ⟨[], rfl, List.forall_mem_nil _, id⟩

theorem isNext {mark : Mark} : Places text (isNext mark) fun _ => [] :=
  of_quiet fun _ _ _ _ done => by cases done; rfl

theorem here : Places text here fun _ => [] :=
  of_quiet fun _ _ _ _ done => by cases done; rfl

theorem spanFrom {start : Pos} : Places text (spanFrom start) fun _ => [] :=
  of_quiet fun _ _ _ _ done => by cases done; rfl

theorem take : Places text take fun _ => [] := by
  intro p f s
  have rest : Appends text [] p f [] (Pure.pure s.current) fun _ => [] := .pure rfl
  exact .passed (fun _ => rfl) (rest _)

theorem accept {mark : Mark} : Places text (accept mark) fun _ => [] := by
  intro p f s
  by_cases found : Mark.ofKind? s.current.kind = some mark
  · have rest : Appends text [] p f [] (Pure.pure true) fun _ => [] := .pure rfl
    exact .passed (fun n => accept_found found) (rest _)
  · rintro n a t done -
    cases (accept_absent found).symm.trans done
    exact ⟨[], rfl, List.forall_mem_nil _, id⟩

theorem expect {mark : Mark} : Places text (expect mark) fun _ => [] :=
  fun _ _ => .skip accept fun _ => .ite (.pure rfl) .unexpected

theorem name : Places text name fun _ => [] := by
  refine fun p f => .look fun s => ?_
  split
  · refine AppendsAt.seq (take p f s) fun _ => .pure rfl
  · exact Appends.unexpected s

/-- A rule begins here as expressions do. -/
theorem begin {next : Pos → Rule β} (opens : Begins (Rule.here >>= next))
    (h : ∀ s p, AppendsAt text [] p s.current.span.start [] (next s.current.span.start) s nodes') :
    Places text (Rule.here >>= next) nodes' :=
  fun _ _ => .opening (fun _ => .of_begins opens) fun s p _ => h s p

/-! ### Repetition -/

theorem when? {present : Rule Bool} (e : Places text present fun _ => [])
    (h : Places text rule nodes) :
    Places text (when? present rule) fun a? => a?.toList.flatMap nodes :=
  fun p f => .skip e fun _ => .ite (.map (by simpa using h p f)) (.pure rfl)

theorem many {round : Rule (Option α)}
    (h : Places text round fun a? => a?.toList.flatMap nodes) :
    Places text (many round) fun items => items.flatMap nodes := by
  intro p f
  have rounds : Appends text [] p f [] (Rule.loop (fun items => do
      return (← round).map (· :: items)) []) fun items => items.reverse.flatMap nodes := by
    refine .loop (fun items : List α => items.reverse.flatMap nodes) fun items =>
      .bind h fun a? => .pure ?_
    cases a? <;> simp
  exact rounds.seq fun items => .pure rfl

theorem separated (h : Places text rule nodes) :
    Places text (separated rule) fun items => items.flatMap nodes :=
  fun _ _ => .bind h fun _ => .bind (many (when? accept h)) fun _ => .pure (by simp)

end Places

namespace Appends

variable {nodes : α → List Node} {isEnd : Rule Bool}

theorem addFurther {add : α → Rule α} (e : Places text isEnd fun _ => [])
    (h : ∀ a, Appends text [] p f (nodes a) (add a) nodes) {a : α} :
    Appends text [] p f (nodes a) (addFurther isEnd add a) nodes :=
  loop nodes fun a => skip .accept fun _ =>
    .ite (skip e fun _ => .ite (pure rfl) (map (h a))) (pure rfl)

theorem addItems {add : α → Rule α} (e : Places text isEnd fun _ => [])
    (h : ∀ a, Appends text [] p f (nodes a) (add a) nodes) {a : α} :
    Appends text [] p f (nodes a) (addItems isEnd add a) nodes :=
  skip e fun _ => .ite (pure rfl) ((h a).seq fun _ => addFurther e h)

theorem furtherItems (e : Places text isEnd fun _ => []) (h : Places text rule nodes) {first : α} :
    Appends text [] p f (nodes first) (furtherItems isEnd rule first) fun items =>
      items.flatMap nodes := by
  have rounds : Appends text [] p f ([first].reverse.flatMap nodes) (Rule.addFurther isEnd
      (fun items => do return (← rule) :: items) [first]) fun items : List α =>
        items.reverse.flatMap nodes :=
    addFurther e (addItem h)
  rw [List.reverse_singleton, List.flatMap_singleton] at rounds
  exact rounds.seq fun items => pure rfl

end Appends

end Rule

end ScoreScript.Script
