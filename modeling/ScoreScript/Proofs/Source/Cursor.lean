import Mathlib.Data.List.Basic
import ScoreScript.Source.Cursor

/-!
Reading what stands in front. A cursor whose unread bytes are split in two is moved past the first
part; what is read that way does not depend on what comes after it.

A cursor that was moved through a text from its start stands at a place of it. A place counts bytes,
lines and columns, but the bytes of the text up to some offset determine all three, so that it is
enough to compare offsets.
-/

namespace ScoreScript

namespace Cursor

variable {bytes rest : List UInt8} {p : Pos}

theorem advanceBy_append (bytes : List UInt8) {count : Nat} (h : bytes.length = count) :
    (⟨bytes ++ rest, p⟩ : Cursor).advanceBy count = ⟨rest, p.after bytes⟩ := by
  rw [advanceBy, ← h, List.drop_left, List.take_left]

theorem advance_cons (b : UInt8) : (⟨b :: rest, p⟩ : Cursor).advance = ⟨rest, p.after [b]⟩ :=
  advanceBy_append [b] rfl

/-- Nothing that satisfies `q` comes next. -/
def Stops (q : UInt8 → Bool) (rest : List UInt8) : Prop :=
  ∀ b ∈ rest.head?, q b = false

theorem stops_cons {q : UInt8 → Bool} {b : UInt8} (h : q b = false) : Stops q (b :: rest) := by
  intro first here
  cases here
  exact h

theorem skipWhile_append (bytes : List UInt8) {q : UInt8 → Bool} (all : ∀ b ∈ bytes, q b = true)
    (stop : Stops q rest) :
    (⟨bytes ++ rest, p⟩ : Cursor).skipWhile q = ⟨rest, p.after bytes⟩ := by
  have none : rest.takeWhile q = [] := by
    cases rest with
    | nil => rfl
    | cons b rest => rw [List.takeWhile_cons, if_neg (by simp [stop b rfl])]
  have taken : (bytes ++ rest).takeWhile q = bytes := by
    rw [List.takeWhile_append_of_pos all, none, List.append_nil]
  rw [skipWhile, taken]
  exact advanceBy_append _ rfl

theorem skipWhile_stop {q : UInt8 → Bool} (stop : Stops q rest) :
    (⟨rest, p⟩ : Cursor).skipWhile q = ⟨rest, p⟩ :=
  skipWhile_append [] (fun _ member => nomatch member) stop

theorem upTo_append :
    (⟨bytes ++ rest, p⟩ : Cursor).upTo ⟨rest, p.after bytes⟩ = bytes := by
  rw [upTo, Pos.offset_after, Nat.add_sub_cancel_left, List.take_left]

theorem consume?_cons (b : UInt8) :
    (⟨b :: rest, p⟩ : Cursor).consume? b = some ⟨rest, p.after [b]⟩ := by
  rw [consume?, if_pos (by rfl), advance_cons]

theorem consume?_cons_ne {b c : UInt8} (h : c ≠ b) :
    (⟨c :: rest, p⟩ : Cursor).consume? b = none := by
  rw [consume?, if_neg]
  intro same
  exact h (Option.some.inj same)

theorem toUInt8_ofUInt8 (b : UInt8) : (Char.ofUInt8 b).toUInt8 = b :=
  UInt8.toUInt8_toUInt32 b

theorem current_of_look {c : Cursor} {char : Char} (h : c.look = some char) :
    c.current = some char.toUInt8 := by
  obtain ⟨b, here, rfl⟩ := Option.map_eq_some_iff.1 h
  rw [here, toUInt8_ofUInt8]

/-! ### What was passed -/

theorem rest_skipWhile (c : Cursor) (p : UInt8 → Bool) :
    c.rest = c.rest.takeWhile p ++ (c.skipWhile p).rest :=
  (List.prefix_iff_eq_append.1 (List.takeWhile_prefix p)).symm

theorem rest_skipWhile_eq (c : Cursor) (p : UInt8 → Bool) :
    (c.skipWhile p).rest = c.rest.dropWhile p := by
  have both := rest_skipWhile c p
  nth_rewrite 1 [← List.takeWhile_append_dropWhile (p := p) (l := c.rest)] at both
  exact (List.append_cancel_left both).symm

/-- What comes next was not skipped. -/
theorem stops_skipWhile (c : Cursor) (p : UInt8 → Bool) : Stops p (c.skipWhile p).rest := by
  intro b here
  rw [rest_skipWhile_eq] at here
  have first := List.head?_dropWhile_not p c.rest
  rwa [here] at first

theorem upTo_advanceBy (c : Cursor) (count : Nat) :
    c.upTo (c.advanceBy count) = c.rest.take count := by
  rw [upTo, pos_advanceBy, Pos.offset_after, Nat.add_sub_cancel_left, List.length_take,
    ← List.take_eq_take_min]

theorem upTo_skipWhile (c : Cursor) (p : UInt8 → Bool) :
    c.upTo (c.skipWhile p) = c.rest.takeWhile p := by
  rw [skipWhile, upTo_advanceBy]
  exact (List.prefix_iff_eq_take.1 (List.takeWhile_prefix p)).symm

theorem rest_of_consume? {c after : Cursor} {b : UInt8} (passed : c.consume? b = some after) :
    c.rest = b :: after.rest := by
  obtain ⟨rest, p⟩ := c
  cases rest with
  | nil => cases passed
  | cons first rest =>
    by_cases same : first = b
    · rw [same, consume?_cons] at passed
      cases passed
      rw [same]
    · rw [consume?_cons_ne same] at passed
      cases passed

theorem peekBytes_eq_some_iff {c : Cursor} {n : Nat} {word : List UInt8} :
    c.peekBytes n = some word ↔ word <+: c.rest ∧ word.length = n := by
  unfold peekBytes
  dsimp only
  constructor
  · intro found
    split at found
    · rename_i long
      cases found
      exact ⟨List.take_prefix n c.rest, long⟩
    · cases found
  · intro found
    obtain ⟨leads, rfl⟩ := found
    rw [← List.prefix_iff_eq_take.1 leads]
    exact if_pos rfl

theorem rest_skipOptional (c : Cursor) (b : UInt8) :
    c.rest = (if (c.consume? b).isSome then [b] else []) ++ (c.skipOptional b).rest := by
  unfold skipOptional
  cases passed : c.consume? b with
  | none => rfl
  | some after => exact rest_of_consume? passed

theorem rest_of_startsWith {c : Cursor} {word : String} (start : c.startsWith word = true) :
    c.rest = word.toList.map Char.toUInt8 ++ (c.advanceBy word.length).rest := by
  have split := List.prefix_iff_eq_append.1 (List.isPrefixOf_iff_prefix.1 start)
  rw [List.length_map, String.length_toList] at split
  exact split.symm

theorem exists_of_not_isEnd {c : Cursor} (more : ¬c.isEnd = true) :
    ∃ b rest, c.rest = b :: rest ∧ c.advance.rest = rest := by
  obtain ⟨rest, p⟩ := c
  cases rest with
  | nil => exact absurd rfl more
  | cons b rest => exact ⟨b, rest, rfl, rfl⟩

/-- A word is as far away as its first occurrence. -/
theorem distance?_eq_some_iff {word : List UInt8} (some_word : word ≠ []) {bytes : List UInt8}
    {passed total : Nat} :
    distance? word passed bytes = some total ↔
      ∃ count, total = passed + count ∧ word <+: bytes.drop count ∧
        ∀ n < count, ¬word <+: bytes.drop n := by
  induction bytes generalizing passed with
  | nil =>
    refine iff_of_false nofun ?_
    rintro ⟨count, -, found, -⟩
    rw [List.drop_nil, List.prefix_nil] at found
    exact some_word found
  | cons b rest ih =>
    by_cases here : word <+: b :: rest
    · rw [distance?, if_pos (List.isPrefixOf_iff_prefix.2 here), Option.some_inj]
      constructor
      · rintro rfl
        exact ⟨0, rfl, here, nofun⟩
      · rintro ⟨count, rfl, -, first⟩
        have none : count = 0 := Nat.eq_zero_of_not_pos fun pos => first 0 pos here
        rw [none, Nat.add_zero]
    · rw [distance?, if_neg (mt List.isPrefixOf_iff_prefix.1 here), ih]
      constructor
      · rintro ⟨count, rfl, found, first⟩
        refine ⟨count + 1, by omega, found, fun n less => ?_⟩
        cases n with
        | zero => exact here
        | succ n => exact first n (Nat.lt_of_succ_lt_succ less)
      · rintro ⟨count, rfl, found, first⟩
        cases count with
        | zero => exact absurd found here
        | succ count =>
          exact ⟨count, by omega, found, fun n less => first (n + 1) (Nat.succ_lt_succ less)⟩

/-- What stands before the first occurrence of a word does not contain it. -/
theorem not_infix_of_first {word bytes : List UInt8} (some_word : word ≠ []) {count : Nat}
    (first : ∀ n < count, ¬word <+: bytes.drop n) : ¬word <:+: bytes.take count := by
  rintro ⟨before, after, split⟩
  have length := congrArg List.length split
  have pos := List.length_pos_iff.2 some_word
  rw [List.length_append, List.length_append, List.length_take] at length
  have whole : bytes = before ++ (word ++ (after ++ bytes.drop count)) := by
    rw [← List.append_assoc, ← List.append_assoc, split, List.take_append_drop]
  refine first before.length (by omega) ?_
  rw [whole, List.drop_left]
  exact List.prefix_append _ _

end Cursor

/-! ### Places of a text -/

namespace Pos

variable {text : List UInt8} {p q : Pos}

/-- A place of the text: where its bytes up to there lead. -/
def IsIn (text : List UInt8) (p : Pos) : Prop :=
  p.offset ≤ text.length ∧ p = Pos.start.after (text.take p.offset)

theorem line_le_step (p : Pos) (b : UInt8) : p.line ≤ (p.step b).line := by
  unfold step
  split
  · exact Nat.le_succ _
  · split <;> exact Nat.le_refl _

theorem line_le_after (p : Pos) (bytes : List UInt8) : p.line ≤ (p.after bytes).line := by
  induction bytes generalizing p with
  | nil => exact Nat.le_refl _
  | cons b bytes ih => exact Nat.le_trans (p.line_le_step b) (ih (p.step b))

theorem IsIn.line_pos (h : p.IsIn text) : 1 ≤ p.line := by
  rw [h.2]
  exact Pos.start.line_le_after _

theorem IsIn.after (n : Nat) : (Pos.start.after (text.take n)).IsIn text := by
  have offset : (Pos.start.after (text.take n)).offset = min n text.length := by
    rw [offset_after, List.length_take]
    exact Nat.zero_add _
  refine ⟨offset ▸ Nat.min_le_right _ _, ?_⟩
  rw [offset, List.take_eq_take_min]

theorem order_of_gt (more : q.offset < p.offset) : p.order q = .gt := by
  rw [order, Nat.compare_eq_gt.2 more]
  rfl

theorem later_of_gt (more : q.offset < p.offset) : p.later q = p := by
  rw [later, if_pos (order_of_gt more)]

end Pos

namespace Span

variable {text : List UInt8} {a b : Span}

/-- A stretch of the text that is not empty. -/
structure IsIn (text : List UInt8) (s : Span) : Prop where
  start : s.start.IsIn text
  stop : s.stop.IsIn text
  nonempty : s.start.offset < s.stop.offset

/-- Nothing of the first span lies outside of the second. -/
def Inside (a b : Span) : Prop :=
  b.start.offset ≤ a.start.offset ∧ a.stop.offset ≤ b.stop.offset

/-- The first span ends where the second begins, or before. -/
def Before (a b : Span) : Prop :=
  a.stop.offset ≤ b.start.offset

theorem IsIn.not_nowhere (h : a.IsIn text) : a.isNowhere = false := by
  have line : a.start.line ≠ 0 := Nat.ne_of_gt h.start.line_pos
  rw [isNowhere, beq_false_of_ne line, Bool.false_and]

end Span

namespace Cursor

variable {text : List UInt8} {c d e : Cursor}

theorem advanceBy_advanceBy (c : Cursor) (m n : Nat) :
    (c.advanceBy m).advanceBy n = c.advanceBy (m + n) := by
  simp only [advanceBy, List.drop_drop, List.take_add, Pos.after_append]

/-- Some bytes are passed between the two. -/
def MovesTo (c d : Cursor) : Prop :=
  ∃ count, d = c.advanceBy count

namespace MovesTo

theorem refl : c.MovesTo c :=
  ⟨0, rfl⟩

theorem advanceBy {count : Nat} : c.MovesTo (c.advanceBy count) :=
  ⟨count, rfl⟩

theorem trans (h : c.MovesTo d) (h' : d.MovesTo e) : c.MovesTo e := by
  obtain ⟨m, rfl⟩ := h
  obtain ⟨n, rfl⟩ := h'
  exact ⟨m + n, c.advanceBy_advanceBy m n⟩

theorem advance : c.MovesTo c.advance :=
  advanceBy

theorem skipWhile {p : UInt8 → Bool} : c.MovesTo (c.skipWhile p) :=
  advanceBy

theorem consume? {b : UInt8} (h : c.consume? b = some d) : c.MovesTo d := by
  unfold Cursor.consume? at h
  split at h <;> cases h
  exact advance

theorem skipOptional {b : UInt8} : c.MovesTo (c.skipOptional b) := by
  unfold Cursor.skipOptional
  cases passed : c.consume? b with
  | none => exact refl
  | some after => exact consume? passed

/-- What is passed is counted, and is no longer to be read. -/
theorem offset_add_length (h : c.MovesTo d) :
    d.pos.offset + d.rest.length = c.pos.offset + c.rest.length := by
  obtain ⟨count, rfl⟩ := h
  rw [length_advanceBy, pos_advanceBy, Pos.offset_after, List.length_take]
  omega

theorem offset_le (h : c.MovesTo d) : c.pos.offset ≤ d.pos.offset := by
  obtain ⟨count, rfl⟩ := h
  rw [pos_advanceBy, Pos.offset_after]
  exact Nat.le_add_right _ _

theorem offset_lt (h : c.MovesTo d) (shorter : d.rest.length < c.rest.length) :
    c.pos.offset < d.pos.offset := by
  have counted := h.offset_add_length
  omega

end MovesTo

/-- A cursor that was moved through the text from its start. -/
def IsIn (text : List UInt8) (c : Cursor) : Prop :=
  (ofBytes text).MovesTo c

theorem IsIn.moved (h : c.IsIn text) (h' : c.MovesTo d) : d.IsIn text :=
  MovesTo.trans h h'

theorem IsIn.pos (h : c.IsIn text) : c.pos.IsIn text := by
  obtain ⟨count, rfl⟩ := h
  exact Pos.IsIn.after count

end Cursor

end ScoreScript
