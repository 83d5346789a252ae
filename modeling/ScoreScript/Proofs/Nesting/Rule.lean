import ScoreScript.Proofs.Stateful
import ScoreScript.Script.Grammar.Argument

/-!
What rules yield if they do not fail. A property of what is read passes from parts to the whole by
the combinators that rules are built from (`Rule.Yields`); where it also depends on the tokens that
are left, it is stated for one stream (`Rule.Ensures`).
-/

namespace ScoreScript.Script

theorem forall_mem_none {α : Type} {P : α → Prop} : ∀ a ∈ (none : Option α), P a :=
  fun a member => absurd member (Option.not_mem_none a)

theorem forall_mem_some {α : Type} {P : α → Prop} {a : α} (h : P a) : ∀ b ∈ some a, P b := by
  rintro _ ⟨⟩
  exact h

/-- How many levels deeper constructs may still nest. -/
def Nesting.room (n : Nesting) : Nat :=
  n.limit - n.depth

namespace Rule

variable {α β : Type} {n : Nesting} {s : Stream}

/-- If the rule reads something from the stream, it gives no token back, and what it read and what
it leaves have the property. -/
def Ensures (n : Nesting) (rule : Rule α) (s : Stream) (Q : α → Stream → Prop) : Prop :=
  ∀ a t, rule n s = .ok (a, t) → t.size ≤ s.size ∧ Q a t

/-- Whatever the rule reads has the property. -/
def Yields (n : Nesting) (rule : Rule α) (P : α → Prop) : Prop :=
  ∀ s, Ensures n rule s fun a _ => P a

namespace Ensures

variable {rule : Rule α} {P : α → Stream → Prop} {Q : β → Stream → Prop}

theorem mono {P' : α → Stream → Prop} (h : Ensures n rule s P) (weaker : ∀ a t, P a t → P' a t) :
    Ensures n rule s P' :=
  fun a t done => ⟨(h a t done).1, weaker a t (h a t done).2⟩

theorem pure {a : α} (h : P a s) : Ensures n (Pure.pure a) s P := by
  rintro _ _ ⟨⟩
  exact ⟨Nat.le_refl _, h⟩

theorem bind {next : α → Rule β} (h : Ensures n rule s P)
    (h' : ∀ a t, t.size ≤ s.size → P a t → Ensures n (next a) t Q) :
    Ensures n (rule >>= next) s Q := by
  intro b u done
  obtain ⟨⟨a, t⟩, first, second⟩ := ok_of_bind (show rule n s >>= _ = .ok (b, u) from done)
  obtain ⟨shorter, holds⟩ := h a t first
  obtain ⟨shorter', holds'⟩ := h' a t shorter holds b u second
  exact ⟨Nat.le_trans shorter' shorter, holds'⟩

/-- A loop keeps an invariant from round to round. Where it ends because there is no more to come,
or for want of progress, that gives the property. -/
theorem loop {round : α → Rule (Option α)} {I : α → Stream → Prop}
    (each : ∀ a s, I a s → Ensures n (round a) s fun b? t =>
      (b? = none → P a t) ∧ ∀ b ∈ b?, I b t ∧ (t.size < s.size ∨ P b t)) :
    ∀ {a s}, I a s → Ensures n (loop round a) s P := by
  intro a s
  induction size : s.size using Nat.strongRecOn generalizing a s with
  | ind m ih =>
    intro invariant c u done
    have one := each a s invariant
    rw [Rule.loop] at done
    split at done
    · cases done
    · rename_i first
      cases done
      exact ⟨(one _ _ first).1, (one _ _ first).2.1 rfl⟩
    · rename_i b after first
      obtain ⟨shorter, -, more⟩ := one _ _ first
      obtain ⟨invariant', progress⟩ := more b rfl
      split at done
      · rename_i less
        obtain ⟨shorter', holds⟩ := ih after.size (size ▸ less) rfl invariant' c u done
        exact ⟨Nat.le_trans shorter' shorter, holds⟩
      · rename_i stuck
        cases done
        exact ⟨shorter, progress.resolve_left stuck⟩

theorem look : Ensures n look s fun kind t => kind = s.current.kind ∧ t = s := by
  rintro _ _ ⟨⟩
  exact ⟨Nat.le_refl _, rfl, rfl⟩

theorem lookAhead : Ensures n lookAhead s fun kind t => kind = s.second.kind ∧ t = s := by
  rintro _ _ ⟨⟩
  exact ⟨Nat.le_refl _, rfl, rfl⟩

theorem here : Ensures n here s fun _ t => t = s := by
  rintro _ _ ⟨⟩
  exact ⟨Nat.le_refl _, rfl⟩

theorem spanFrom {start : Pos} : Ensures n (spanFrom start) s fun _ t => t = s := by
  rintro _ _ ⟨⟩
  exact ⟨Nat.le_refl _, rfl⟩

theorem isNext {mark : Mark} :
    Ensures n (isNext mark) s fun found t =>
      found = (Mark.ofKind? s.current.kind == some mark) ∧ t = s := by
  rintro _ _ ⟨⟩
  exact ⟨Nat.le_refl _, rfl, rfl⟩

theorem take : Ensures n take s fun _ t => s.current.kind.isEof = false → t.size < s.size := by
  rintro _ _ ⟨⟩
  exact ⟨s.size_advance_le, Stream.size_advance_lt⟩

theorem isEof_of_ofKind? {kind : TokenKind} {mark : Mark} (same : Mark.ofKind? kind = some mark) :
    kind.isEof = false := by
  cases kind <;> first | rfl | cases same

/-- A mark is taken just in case it comes next. -/
theorem accept {mark : Mark} :
    Ensures n (accept mark) s fun taken t =>
      (taken = true ∧ Mark.ofKind? s.current.kind = some mark ∧ t.size < s.size) ∨
      (taken = false ∧ Mark.ofKind? s.current.kind ≠ some mark ∧ t = s) := by
  intro taken t done
  by_cases same : Mark.ofKind? s.current.kind = some mark
  · have shorter := s.size_advance_lt (isEof_of_ofKind? same)
    change (if (Mark.ofKind? s.current.kind == some mark) = true then _ else _ : Rule Bool) n s =
      _ at done
    rw [if_pos (beq_iff_eq.2 same)] at done
    cases done
    exact ⟨Nat.le_of_lt shorter, .inl ⟨rfl, same, shorter⟩⟩
  · change (if (Mark.ofKind? s.current.kind == some mark) = true then _ else _ : Rule Bool) n s =
      _ at done
    rw [if_neg (mt beq_iff_eq.1 same)] at done
    cases done
    exact ⟨Nat.le_refl _, .inr ⟨rfl, same, rfl⟩⟩

/-- What is true between two items is so still after the last one, where also no more come. -/
theorem many {round : Rule (Option α)} {P : α → Prop} {I E : Stream → Prop}
    (each : ∀ s, I s → Ensures n round s fun a? t =>
      (a? = none → E t) ∧ ∀ a ∈ a?, P a ∧ I t ∧ t.size < s.size) (start : I s) :
    Ensures n (many round) s fun items t => (∀ a ∈ items, P a) ∧ E t := by
  have rounds : Ensures n (Rule.loop (fun items => do return (← round).map (· :: items)) []) s
      fun items t => (∀ a ∈ items, P a) ∧ E t := by
    refine Ensures.loop (I := fun items s => (∀ a ∈ items, P a) ∧ I s) ?_
      ⟨List.forall_mem_nil _, start⟩
    rintro items s ⟨all, between⟩
    intro items? t done
    obtain ⟨⟨a?, t⟩, first, ⟨⟩⟩ := ok_of_bind (show round n s >>= _ = .ok (items?, t) from done)
    obtain ⟨shorter, last, more⟩ := each s between a? t first
    refine ⟨shorter, fun nothing => ⟨all, ?_⟩, fun b found => ?_⟩
    · exact last (Option.map_eq_none_iff.1 nothing)
    obtain ⟨a, one, rfl⟩ := Option.map_eq_some_iff.1 found
    obtain ⟨holds, between', less⟩ := more a one
    exact ⟨⟨List.forall_mem_cons.2 ⟨holds, all⟩, between'⟩, .inl less⟩
  refine rounds.bind fun items t _ both => .pure ⟨fun a member => ?_, both.2⟩
  exact both.1 a (List.mem_reverse.1 member)

end Ensures

namespace Yields

variable {rule : Rule α} {P : α → Prop} {Q : β → Prop}

theorem mono {P' : α → Prop} (h : Yields n rule P) (weaker : ∀ a, P a → P' a) :
    Yields n rule P' :=
  fun s => (h s).mono fun a _ => weaker a

theorem pure {a : α} (h : P a) : Yields n (Pure.pure a) P :=
  fun _ => .pure h

theorem bind {next : α → Rule β} (h : Yields n rule P) (h' : ∀ a, P a → Yields n (next a) Q) :
    Yields n (rule >>= next) Q :=
  fun s => (h s).bind fun a t _ holds => h' a holds t

/-- A rule of which it does not matter what it reads. -/
theorem skip {next : α → Rule β} (h : Yields n rule fun _ => True)
    (h' : ∀ a, Yields n (next a) Q) : Yields n (rule >>= next) Q :=
  h.bind fun a _ => h' a

theorem map {f : α → β} (h : Yields n rule P) (holds : ∀ a, P a → Q (f a)) :
    Yields n (f <$> rule) Q :=
  have all : Yields n (rule >>= fun a => Pure.pure (f a)) Q :=
    h.bind fun a known => .pure (holds a known)
  all

theorem ite {c : Prop} [Decidable c] {first second : Rule α} (h : Yields n first P)
    (h' : Yields n second P) : Yields n (if c then first else second) P := by
  split
  · exact h
  · exact h'

/-! ### Single tokens -/

theorem look : Yields n look fun _ => True := by
  rintro s _ _ ⟨⟩
  exact ⟨Nat.le_refl _, trivial⟩

theorem lookAhead : Yields n lookAhead fun _ => True := by
  rintro s _ _ ⟨⟩
  exact ⟨Nat.le_refl _, trivial⟩

theorem here : Yields n here fun _ => True := by
  rintro s _ _ ⟨⟩
  exact ⟨Nat.le_refl _, trivial⟩

theorem spanFrom {start : Pos} : Yields n (spanFrom start) fun _ => True := by
  rintro s _ _ ⟨⟩
  exact ⟨Nat.le_refl _, trivial⟩

theorem take : Yields n take fun _ => True := by
  rintro s _ _ ⟨⟩
  exact ⟨s.size_advance_le, trivial⟩

theorem fail {cause : GrammarError} {span : Span} : Yields n (fail cause span : Rule α) P := by
  rintro s _ _ ⟨⟩

theorem unexpected {wanted : String} : Yields n (unexpected wanted : Rule α) P := by
  rintro s _ _ ⟨⟩

theorem lift {result : Except Error α} (h : ∀ a, result = .ok a → P a) :
    Yields n (lift result) P := by
  intro s a t done
  cases result with
  | error e => cases done
  | ok a =>
    cases done
    exact ⟨Nat.le_refl _, h a rfl⟩

theorem isNext {mark : Mark} : Yields n (isNext mark) fun _ => True :=
  look.skip fun _ => .pure trivial

theorem accept {mark : Mark} : Yields n (accept mark) fun _ => True :=
  isNext.skip fun _ => .ite (take.skip fun _ => .pure trivial) (.pure trivial)

theorem expect {mark : Mark} : Yields n (expect mark) fun _ => True :=
  accept.skip fun _ => .ite (.pure trivial) unexpected

theorem name : Yields n name fun _ => True := by
  refine look.skip fun kind => ?_
  split
  · exact take.skip fun _ => .pure trivial
  · exact unexpected

/-! ### Nesting and repetition -/

/-- What is nested has one level less to nest. -/
theorem nested (limited : 0 < n.limit)
    (h : ∀ m : Nesting, 0 < m.limit → m.room + 1 = n.room → Yields m rule P) :
    Yields n (nested rule) P := by
  intro s a t done
  unfold Rule.nested at done
  split at done
  · rename_i allowed
    have deeper : n.depth + 1 ≤ n.limit := by
      simp only [Limits.allows, Bool.or_eq_true, beq_iff_eq, decide_eq_true_eq] at allowed
      omega
    exact h ⟨n.limit, n.depth + 1⟩ limited (by simp only [Nesting.room]; omega) s a t done
  · cases done

theorem when? {present : Rule Bool} (p : Yields n present fun _ => True) (h : Yields n rule P) :
    Yields n (when? present rule) fun a? => ∀ a ∈ a?, P a := by
  exact p.skip fun _ => .ite (h.map fun a holds => forall_mem_some holds) (.pure forall_mem_none)

theorem loop {round : α → Rule (Option α)} {a : α}
    (h : ∀ a, P a → Yields n (round a) fun b? => ∀ b ∈ b?, P b) (start : P a) :
    Yields n (loop round a) P :=
  fun _ => Ensures.loop (I := fun a _ => P a)
    (fun a s holds => (h a holds s).mono fun _ _ all =>
      ⟨fun _ => holds, fun b found => ⟨all b found, .inr (all b found)⟩⟩) start

theorem many {round : Rule (Option α)} (h : Yields n round fun a? => ∀ a ∈ a?, P a) :
    Yields n (many round) fun items => ∀ a ∈ items, P a := by
  refine bind (loop (P := fun items => ∀ a ∈ items, P a) (fun items all => ?_)
    (List.forall_mem_nil _)) fun items all => .pure fun a member => all a (List.mem_reverse.1 member)
  refine h.bind fun a? holds => .pure ?_
  intro _ found
  obtain ⟨a, one, rfl⟩ := Option.map_eq_some_iff.1 found
  exact List.forall_mem_cons.2 ⟨holds a one, all⟩

theorem separated (h : Yields n rule P) :
    Yields n (separated rule) fun items => ∀ a ∈ items, P a :=
  h.bind fun _ holds => bind (many (when? accept h)) fun _ all =>
    .pure (List.forall_mem_cons.2 ⟨holds, all⟩)

theorem addFurther {isEnd : Rule Bool} {add : α → Rule α} {a : α}
    (e : Yields n isEnd fun _ => True) (h : ∀ a, P a → Yields n (add a) P) (start : P a) :
    Yields n (addFurther isEnd add a) P := by
  refine loop (fun a holds => ?_) start
  refine accept.skip fun _ => .ite (e.skip fun _ => .ite (.pure forall_mem_none) ?_)
    (.pure forall_mem_none)
  exact (h a holds).map fun b holds' => forall_mem_some holds'

theorem addItems {isEnd : Rule Bool} {add : α → Rule α} {a : α}
    (e : Yields n isEnd fun _ => True) (h : ∀ a, P a → Yields n (add a) P) (start : P a) :
    Yields n (addItems isEnd add a) P :=
  e.skip fun _ => .ite (.pure start) ((h a start).bind fun _ holds => addFurther e h holds)

theorem furtherItems {isEnd : Rule Bool} {first : α} (e : Yields n isEnd fun _ => True)
    (h : Yields n rule P) (start : P first) :
    Yields n (furtherItems isEnd rule first) fun items => ∀ a ∈ items, P a := by
  refine bind (addFurther (P := fun items => ∀ a ∈ items, P a) e (fun items all => ?_) ?_)
    fun items all => .pure fun a member => all a (List.mem_reverse.1 member)
  · exact h.bind fun a holds => .pure (List.forall_mem_cons.2 ⟨holds, all⟩)
  · exact List.forall_mem_singleton.2 start

theorem items {isEnd : Rule Bool} (e : Yields n isEnd fun _ => True) (h : Yields n rule P) :
    Yields n (items isEnd rule) fun items => ∀ a ∈ items, P a := by
  refine bind (addItems (P := fun items => ∀ a ∈ items, P a) e (fun items all => ?_)
    (List.forall_mem_nil _)) fun items all => .pure fun a member => all a (List.mem_reverse.1 member)
  exact h.bind fun a holds => .pure (List.forall_mem_cons.2 ⟨holds, all⟩)

end Yields

end Rule

/-! ### Rules that only look ahead -/

namespace Grammar

open Rule

variable {n : Nesting}

theorem isExpressionEnd_yields : Yields n isExpressionEnd fun _ => True := by
  unfold isExpressionEnd
  refine .skip .look fun kind => ?_
  split <;> exact .pure trivial

theorem isKeywordNext_yields : Yields n isKeywordNext fun _ => True := by
  unfold isKeywordNext
  refine .skip .look fun first => .skip .lookAhead fun second => ?_
  split <;> exact .pure trivial

end Grammar

end ScoreScript.Script
