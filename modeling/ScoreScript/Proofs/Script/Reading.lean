import Mathlib.Data.List.Basic
import ScoreScript.Script.Stream

/-!
Rules that read what stands in front. Only the kinds of tokens decide what a rule does, so what a
rule reads is stated for the kinds ahead: it takes the first of them, leaves the rest, and yields
something with a property (`Rule.Reads`).
-/

namespace ScoreScript.Script

/-- The kinds of the tokens ahead. -/
def Stream.kinds (s : Stream) : List TokenKind :=
  s.rest.map (·.kind)

theorem Stream.size_eq_length (s : Stream) : s.size = s.kinds.length := by
  rw [s.size_eq, kinds, List.length_map]

theorem Stream.kind_current (s : Stream) (kind : TokenKind) (h : s.kinds.head? = some kind) :
    s.current.kind = kind := by
  cases rest : s.rest with
  | nil => simp [kinds, rest] at h
  | cons token more => simpa [kinds, rest, current] using h

theorem Stream.kind_second (s : Stream) (kind : TokenKind) (h : s.kinds.tail.head? = some kind) :
    s.second.kind = kind := by
  rw [kinds, ← List.map_tail] at h
  cases rest : s.rest.tail with
  | nil => simp [rest] at h
  | cons token more => simpa [rest, second] using h

theorem Stream.kinds_advance {s : Stream} {kind : TokenKind} {kinds : List TokenKind}
    (h : s.kinds = kind :: kinds) (more : kind.isEof = false) : s.advance.kinds = kinds := by
  have current := s.kind_current kind (by rw [h]; rfl)
  rw [advance, current, more]
  simp only [Bool.false_eq_true, if_false, Stream.kinds]
  rw [List.map_tail]
  exact congrArg List.tail h

namespace Rule

variable {α β : Type} {n : Nesting} {kinds rest : List TokenKind}

theorem run_bind (rule : Rule α) (next : α → Rule β) (n : Nesting) (s : Stream) :
    (rule >>= next) n s = (rule n s).bind fun read => next read.1 n read.2 := rfl

/-- The rule reads `kinds` if `rest` follows, and yields something with the property. -/
def Reads (n : Nesting) (rule : Rule α) (kinds rest : List TokenKind) (P : α → Prop) : Prop :=
  ∀ s : Stream, s.kinds = kinds ++ rest →
    ∃ a t, rule n s = .ok (a, t) ∧ t.kinds = rest ∧ P a

namespace Reads

variable {P Q : α → Prop} {R : β → Prop}

theorem mono {rule : Rule α} (h : Reads n rule kinds rest P) (weaker : ∀ a, P a → Q a) :
    Reads n rule kinds rest Q := by
  intro s ahead
  obtain ⟨a, t, read, left, holds⟩ := h s ahead
  exact ⟨a, t, read, left, weaker a holds⟩

theorem pure {a : α} (h : P a) : Reads n (Pure.pure a) [] rest P :=
  fun s ahead => ⟨a, s, rfl, ahead, h⟩

theorem bind {rule : Rule α} {next : α → Rule β} {first second : List TokenKind}
    (h : Reads n rule first (second ++ rest) P) (h' : ∀ a, P a → Reads n (next a) second rest R) :
    Reads n (rule >>= next) (first ++ second) rest R := by
  intro s ahead
  rw [List.append_assoc] at ahead
  obtain ⟨a, t, read, left, holds⟩ := h s ahead
  obtain ⟨b, u, read', left', holds'⟩ := h' a holds t left
  exact ⟨b, u, by rw [run_bind, read]; exact read', left', holds'⟩

/-- A rule that reads nothing, and then another. -/
theorem bind_nothing {rule : Rule α} {next : α → Rule β}
    (h : Reads n rule [] (kinds ++ rest) P) (h' : ∀ a, P a → Reads n (next a) kinds rest R) :
    Reads n (rule >>= next) kinds rest R :=
  show Reads n _ ([] ++ kinds) rest R from h.bind h'

/-- A rule that reads one token, and then another rule. -/
theorem bind_one {rule : Rule α} {next : α → Rule β} {kind : TokenKind}
    (h : Reads n rule [kind] (kinds ++ rest) P) (h' : ∀ a, P a → Reads n (next a) kinds rest R) :
    Reads n (rule >>= next) (kind :: kinds) rest R :=
  show Reads n _ ([kind] ++ kinds) rest R from h.bind h'

/-- A rule that reads everything, and then one that reads nothing. -/
theorem bind_all {rule : Rule α} {next : α → Rule β} (h : Reads n rule kinds rest P)
    (h' : ∀ a, P a → Reads n (next a) [] rest R) : Reads n (rule >>= next) kinds rest R := by
  have all : Reads n (rule >>= next) (kinds ++ []) rest R := h.bind h'
  rwa [List.append_nil] at all

theorem map {rule : Rule α} {f : α → β} (h : Reads n rule kinds rest P)
    (holds : ∀ a, P a → R (f a)) : Reads n (f <$> rule) kinds rest R := by
  have all : Reads n (rule >>= fun a => Pure.pure (f a)) kinds rest R :=
    h.bind_all fun a known => .pure (holds a known)
  exact all

/-! ### Looking ahead -/

theorem bind_here {next : Pos → Rule β} (h : ∀ p, Reads n (next p) kinds rest R) :
    Reads n (here >>= next) kinds rest R :=
  fun s ahead => h s.current.span.start s ahead

theorem bind_span {start : Pos} {next : Span → Rule β}
    (h : ∀ span, Reads n (next span) kinds rest R) :
    Reads n (spanFrom start >>= next) kinds rest R :=
  fun s ahead => h _ s ahead

theorem bind_look (kind : TokenKind) {next : TokenKind → Rule β}
    (first : (kinds ++ rest).head? = some kind) (h : Reads n (next kind) kinds rest R) :
    Reads n (look >>= next) kinds rest R := by
  intro s ahead
  have here := s.kind_current kind (by rw [ahead, first])
  obtain ⟨a, t, read, others⟩ := h s ahead
  exact ⟨a, t, by rw [run_bind, look]; simpa only [Except.bind, here] using read, others⟩

theorem bind_lookAhead {next : TokenKind → Rule β}
    (h : ∀ kind, Reads n (next kind) kinds rest R) :
    Reads n (lookAhead >>= next) kinds rest R :=
  fun s ahead => h _ s ahead

theorem bind_second (kind : TokenKind) {next : TokenKind → Rule β}
    (second : (kinds ++ rest).tail.head? = some kind) (h : Reads n (next kind) kinds rest R) :
    Reads n (lookAhead >>= next) kinds rest R := by
  intro s ahead
  have here := s.kind_second kind (by rw [ahead, second])
  obtain ⟨a, t, read, others⟩ := h s ahead
  exact ⟨a, t, by rw [run_bind, lookAhead]; simpa only [Except.bind, here] using read, others⟩

theorem bind_isNext (kind : TokenKind) {mark : Mark} {next : Bool → Rule β}
    (first : (kinds ++ rest).head? = some kind)
    (h : Reads n (next (Mark.ofKind? kind == some mark)) kinds rest R) :
    Reads n (isNext mark >>= next) kinds rest R := by
  intro s ahead
  have here := s.kind_current kind (by rw [ahead, first])
  have looked : isNext mark n s = .ok (Mark.ofKind? kind == some mark, s) := by
    rw [← here]
    rfl
  obtain ⟨a, t, read, others⟩ := h s ahead
  exact ⟨a, t, by rw [run_bind, looked]; exact read, others⟩

/-- A mark that does not come next is not taken. -/
theorem bind_accept_other (kind : TokenKind) {mark : Mark} {next : Bool → Rule β}
    (first : (kinds ++ rest).head? = some kind) (other : Mark.ofKind? kind ≠ some mark)
    (h : Reads n (next false) kinds rest R) : Reads n (accept mark >>= next) kinds rest R := by
  intro s ahead
  have here := s.kind_current kind (by rw [ahead, first])
  have left : accept mark n s = .ok (false, s) := by
    have none : (Mark.ofKind? s.current.kind == some mark) = false := by
      rw [here]
      exact beq_eq_false_iff_ne.2 other
    change (if (Mark.ofKind? s.current.kind == some mark) = true then _ else _ : Rule Bool) n s = _
    rw [none]
    rfl
  obtain ⟨a, t, read, others⟩ := h s ahead
  exact ⟨a, t, by rw [run_bind, left]; exact read, others⟩

/-! ### Reading on -/

theorem bind_take {kind : TokenKind} {next : Token TokenKind → Rule β}
    (more : kind.isEof = false)
    (h : ∀ token, token.kind = kind → Reads n (next token) kinds rest R) :
    Reads n (take >>= next) (kind :: kinds) rest R := by
  intro s ahead
  have here := s.kind_current kind (by rw [ahead]; rfl)
  exact h s.current here s.advance (s.kinds_advance ahead more)

theorem accept_taken {mark : Mark} {kind : TokenKind} (same : Mark.ofKind? kind = some mark) :
    Reads n (accept mark) [kind] rest (· = true) := by
  intro s ahead
  have here := s.kind_current kind (by rw [ahead]; rfl)
  have more : kind.isEof = false := by
    cases kind <;> first | rfl | cases same
  refine ⟨true, s.advance, ?_, s.kinds_advance ahead more, rfl⟩
  have found : (Mark.ofKind? s.current.kind == some mark) = true := by
    rw [here]
    exact beq_iff_eq.2 same
  change (if (Mark.ofKind? s.current.kind == some mark) = true then _ else _ : Rule Bool) n s = _
  rw [found]
  rfl

theorem bind_accept {mark : Mark} {kind : TokenKind} {next : Bool → Rule β}
    (same : Mark.ofKind? kind = some mark) (h : Reads n (next true) kinds rest R) :
    Reads n (accept mark >>= next) (kind :: kinds) rest R :=
  (accept_taken same).bind_one fun a taken => by rwa [taken]

theorem expect_taken {mark : Mark} {kind : TokenKind} (same : Mark.ofKind? kind = some mark) :
    Reads n (expect mark) [kind] rest fun _ => True :=
  bind_accept same (.pure trivial)

theorem name_taken {id : String} : Reads n name [.name id] rest (· = id) :=
  bind_look (.name id) rfl (bind_take rfl fun _ _ => .pure rfl)

/-! ### Nesting and repetition -/

theorem nested {rule : Rule α} (room : Limits.allows n.limit (n.depth + 1) = true)
    (h : Reads ⟨n.limit, n.depth + 1⟩ rule kinds rest P) : Reads n (nested rule) kinds rest P := by
  intro s ahead
  obtain ⟨a, t, read, others⟩ := h s ahead
  exact ⟨a, t, by rw [Rule.nested, if_pos room, read], others⟩

theorem loop_stop {round : α → Rule (Option α)} {a : α}
    (h : Reads n (round a) kinds rest (· = none))
    (holds : P a) : Reads n (loop round a) kinds rest P := by
  intro s ahead
  obtain ⟨_, t, read, left, rfl⟩ := h s ahead
  exact ⟨a, t, by rw [loop, read], left, holds⟩

theorem loop_more {round : α → Rule (Option α)} {a : α} (first second : List TokenKind)
    (some_first : first ≠ [])
    (h : Reads n (round a) first (second ++ rest) fun b? => ∃ b, b? = some b ∧ Q b)
    (h' : ∀ b, Q b → Reads n (loop round b) second rest P) :
    Reads n (loop round a) (first ++ second) rest P := by
  intro s ahead
  rw [List.append_assoc] at ahead
  obtain ⟨_, t, read, left, b, rfl, holds⟩ := h s ahead
  have shorter : t.size < s.size := by
    have positive := List.length_pos_iff.2 some_first
    rw [t.size_eq_length, s.size_eq_length, left, ahead]
    simp only [List.length_append]
    omega
  obtain ⟨c, u, read', others⟩ := h' b holds t left
  exact ⟨c, u, by rw [loop, read]; simpa only [shorter, dif_pos] using read', others⟩

end Reads

variable {ι : Type} {round : Rule (Option α)} {kindsOf : ι → List TokenKind}
  {last : List TokenKind} {Item : ι → α → Prop} {After : List TokenKind → Prop}

/-- The round reads the item and something, where `After` holds of what follows and holds again
before the item. -/
structure Reads.Rounds (n : Nesting) (round : Rule (Option α)) (After : List TokenKind → Prop)
    (Item : α → Prop) (kinds : List TokenKind) : Prop where
  nonempty : kinds ≠ []
  before : ∀ tail, After tail → After (kinds ++ tail)
  reads : ∀ tail, After tail → Reads n round kinds tail fun a? => ∃ a, a? = some a ∧ Item a

/-- The loop of `many` reads on from the items before, last first. -/
theorem Reads.loop_items (stop : Reads n round last rest (· = none)) (ended : After (last ++ rest)) :
    ∀ {items : List ι} {before : List α},
      (∀ item ∈ items, Rounds n round After (Item item) (kindsOf item)) →
      Reads n (loop (fun items => do return (← round).map (· :: items)) before)
        (items.flatMap kindsOf ++ last) rest
        fun found => ∃ read, found = read.reverse ++ before ∧ List.Forall₂ Item items read
  | [], before, _ => by
    refine loop_stop (stop.bind_all fun a? none => .pure ?_) ⟨[], rfl, .nil⟩
    rw [none]
    rfl
  | item :: more, before, one => by
    obtain ⟨here, others⟩ := List.forall_mem_cons.1 one
    have after : After (more.flatMap kindsOf ++ last ++ rest) := by
      rw [List.append_assoc]
      clear one
      induction more with
      | nil => exact ended
      | cons next more ih =>
        obtain ⟨next, others⟩ := List.forall_mem_cons.1 others
        rw [List.flatMap_cons, List.append_assoc]
        exact next.before _ (ih others)
    rw [List.flatMap_cons, List.append_assoc]
    refine loop_more _ _ (Q := fun items => ∃ a, items = a :: before ∧ Item item a) here.nonempty
      ((here.reads _ after).bind_all fun a? found => .pure ?_) ?_
    · obtain ⟨a, rfl, holds⟩ := found
      exact ⟨a :: before, rfl, a, rfl, holds⟩
    · rintro _ ⟨a, rfl, holds⟩
      refine (loop_items stop ended others).mono ?_
      rintro _ ⟨read, rfl, all⟩
      exact ⟨a :: read, by simp, .cons holds all⟩

/-- Items one after the other, up to where a round finds none. -/
theorem Reads.many {items : List ι}
    (one : ∀ item ∈ items, Rounds n round After (Item item) (kindsOf item))
    (stop : Reads n round last rest (· = none)) (ended : After (last ++ rest)) :
    Reads n (many round) (items.flatMap kindsOf ++ last) rest (List.Forall₂ Item items) := by
  refine (loop_items stop ended one).bind_all ?_
  rintro _ ⟨read, rfl, all⟩
  exact .pure (by simpa using all)

/-- Items that may stand before anything. -/
theorem Reads.Rounds.of_any {Item : α → Prop} {kinds : List TokenKind} (nonempty : kinds ≠ [])
    (reads : ∀ tail, Reads n round kinds tail fun a? => ∃ a, a? = some a ∧ Item a) :
    Rounds n round (fun _ => True) Item kinds :=
  ⟨nonempty, fun _ _ => trivial, fun tail _ => reads tail⟩

/-- Nothing is read where a round finds nothing. -/
theorem Reads.many_none (stop : Reads n round kinds rest (· = none)) :
    Reads n (Rule.many round) kinds rest (· = []) := by
  have items : ∀ item ∈ ([] : List Empty),
      Rounds n round (fun _ => True) (fun _ => True) ([] : List TokenKind) :=
    fun item => nomatch item
  have none : Reads n (Rule.many round) (([] : List Empty).flatMap (fun _ => []) ++ kinds) rest
      (List.Forall₂ (fun _ _ => True) ([] : List Empty)) := .many items stop trivial
  exact none.mono fun found empty => by cases empty; rfl

end Rule

end ScoreScript.Script
