/-!
Places in a text that is read byte by byte. A place counts bytes from zero, lines and
columns from one; the place of line zero stands for "nowhere". A token is what was read, and where.
-/

namespace ScoreScript

/-- A byte offset with its line and column. -/
structure Pos where
  offset : Nat
  line : Nat
  col : Nat
  deriving DecidableEq, Repr, Inhabited

namespace Pos

/-- The place of the first byte of a text. -/
def start : Pos := ⟨0, 1, 1⟩

/-- The place after one more byte. Only a line feed starts a line, and the bytes that
continue a character share its column. -/
def step (p : Pos) (b : UInt8) : Pos :=
  if b = 0x0A then ⟨p.offset + 1, p.line + 1, 1⟩
  else if b &&& 0xC0 = 0x80 then ⟨p.offset + 1, p.line, p.col⟩
  else ⟨p.offset + 1, p.line, p.col + 1⟩

/-- The place after some more bytes. -/
def after (p : Pos) (bytes : List UInt8) : Pos :=
  bytes.foldl step p

/-- Places are ordered by offset, then line, then column. -/
def order (a b : Pos) : Ordering :=
  (compare a.offset b.offset).then ((compare a.line b.line).then (compare a.col b.col))

def earlier (a b : Pos) : Pos :=
  if order a b = .gt then b else a

def later (a b : Pos) : Pos :=
  if order a b = .gt then a else b

/-- The wording of a place in messages, line and column. -/
def text (p : Pos) : String :=
  s!"{p.line}:{p.col}"

theorem after_append (p : Pos) (xs ys : List UInt8) :
    p.after (xs ++ ys) = (p.after xs).after ys := by
  simp only [after, List.foldl_append]

theorem offset_step (p : Pos) (b : UInt8) : (p.step b).offset = p.offset + 1 := by
  unfold step
  split
  · rfl
  · split <;> rfl

theorem offset_after (p : Pos) (bytes : List UInt8) :
    (p.after bytes).offset = p.offset + bytes.length := by
  induction bytes generalizing p with
  | nil => rfl
  | cons b bytes ih =>
    have tail := ih (p.step b)
    simp only [after, List.foldl_cons, List.length_cons] at tail ⊢
    rw [tail, offset_step]
    omega

end Pos

/-- A stretch of text between two places. -/
structure Span where
  start : Pos
  stop : Pos
  deriving DecidableEq, Repr, Inhabited

namespace Span

/-- The span of what has no place in the text. -/
def nowhere : Span := ⟨⟨0, 0, 0⟩, ⟨0, 0, 0⟩⟩

/-- The span of a single place. -/
def point (p : Pos) : Span := ⟨p, p⟩

def isNowhere (s : Span) : Bool :=
  s.start.line == 0 && s.stop.line == 0

/-- The smallest span that covers both. -/
def cover (a b : Span) : Span :=
  ⟨a.start.earlier b.start, a.stop.later b.stop⟩

end Span

end ScoreScript

namespace ScoreScript

structure Token (κ : Type) where
  kind : κ
  span : Span
  deriving Repr, Inhabited

end ScoreScript
