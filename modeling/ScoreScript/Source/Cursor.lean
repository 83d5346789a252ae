import ScoreScript.Source.Position

/-!
The reading position of the three readers. A cursor is the bytes still to be read together
with their place, and every movement is an `advanceBy`, so a place depends on nothing but
the bytes that were passed.
-/

namespace ScoreScript

/-- The bytes still to be read and the place of the first of them. -/
structure Cursor where
  rest : List UInt8
  pos : Pos
  deriving DecidableEq, Repr, Inhabited

namespace Cursor

def ofBytes (bytes : List UInt8) : Cursor :=
  ⟨bytes, .start⟩

/-- Pass the next bytes, fewer if the text ends before. -/
def advanceBy (c : Cursor) (count : Nat) : Cursor :=
  ⟨c.rest.drop count, c.pos.after (c.rest.take count)⟩

def advance (c : Cursor) : Cursor :=
  c.advanceBy 1

def isEnd (c : Cursor) : Bool :=
  c.rest.isEmpty

/-- The next byte. -/
def current (c : Cursor) : Option UInt8 :=
  c.rest.head?

/-- The byte that lies `ahead` bytes past the next one. -/
def peek (c : Cursor) (ahead : Nat) : Option UInt8 :=
  c.rest[ahead]?

/-- The next byte, shown as the character with its number. -/
def look (c : Cursor) : Option Char :=
  c.current.map Char.ofUInt8

def lookAt (c : Cursor) (ahead : Nat) : Option Char :=
  (c.peek ahead).map Char.ofUInt8

/-- The next `count` bytes, if there are so many. -/
def peekBytes (c : Cursor) (count : Nat) : Option (List UInt8) :=
  let bytes := c.rest.take count
  if bytes.length = count then some bytes else none

/-- Whether the unread bytes begin with the characters of `word`, all of them ASCII. -/
def startsWith (c : Cursor) (word : String) : Bool :=
  (word.toList.map Char.toUInt8).isPrefixOf c.rest

/-- Pass bytes as long as they satisfy `p`. -/
def skipWhile (c : Cursor) (p : UInt8 → Bool) : Cursor :=
  c.advanceBy (c.rest.takeWhile p).length

def isWhitespace (b : UInt8) : Bool :=
  b == 0x20 || b == 0x09 || b == 0x0A || b == 0x0D

def isBlank (b : UInt8) : Bool :=
  b == 0x20 || b == 0x09 || b == 0x0C

def isDigit (b : UInt8) : Bool :=
  0x30 ≤ b && b ≤ 0x39

/-- Pass spaces, tabs and line breaks. -/
def skipWhitespace (c : Cursor) : Cursor :=
  c.skipWhile isWhitespace

/-- Pass spaces, tabs and form feeds; in a script a line break has a meaning. -/
def skipBlanks (c : Cursor) : Cursor :=
  c.skipWhile isBlank

/-- Pass the byte `expected` if it is next. -/
def consume? (c : Cursor) (expected : UInt8) : Option Cursor :=
  if c.current = some expected then some c.advance else none

/-- Pass the byte `expected` if it is next, and nothing otherwise. -/
def skipOptional (c : Cursor) (expected : UInt8) : Cursor :=
  (c.consume? expected).getD c

/-- How many bytes lie before the first occurrence of `word`, after `passed` others. -/
def distance? (word : List UInt8) (passed : Nat) : List UInt8 → Option Nat
  | [] => none
  | b :: rest =>
    if word.isPrefixOf (b :: rest) then some passed else distance? word (passed + 1) rest

/-- Pass everything up to and including the first occurrence of `word`. Where it does not
occur, the end of the text is reported instead. -/
def skipPast (c : Cursor) (word : String) : Except Cursor Cursor :=
  match distance? (word.toList.map Char.toUInt8) 0 c.rest with
  | some count => .ok (c.advanceBy (count + word.length))
  | none => .error (c.advanceBy c.rest.length)

/-- The bytes from `c` up to the later cursor `now`. -/
def upTo (c now : Cursor) : List UInt8 :=
  c.rest.take (now.pos.offset - c.pos.offset)

/-- The bytes of a text that were read since offset `start`. -/
def readSince (c : Cursor) (text : List UInt8) (start : Nat) : List UInt8 :=
  (text.take c.pos.offset).drop start

theorem rest_advanceBy (c : Cursor) (count : Nat) :
    (c.advanceBy count).rest = c.rest.drop count := rfl

theorem pos_advanceBy (c : Cursor) (count : Nat) :
    (c.advanceBy count).pos = c.pos.after (c.rest.take count) := rfl

theorem length_advanceBy (c : Cursor) (count : Nat) :
    (c.advanceBy count).rest.length = c.rest.length - count := by
  simp only [rest_advanceBy, List.length_drop]

theorem length_advance (c : Cursor) : c.advance.rest.length = c.rest.length - 1 :=
  length_advanceBy c 1

theorem length_advance_le (c : Cursor) : c.advance.rest.length ≤ c.rest.length := by
  rw [length_advance]
  omega

theorem length_pos_of_current {c : Cursor} {b : UInt8} (h : c.current = some b) :
    0 < c.rest.length := by
  apply List.length_pos_iff.2
  intro none_left
  simp [current, none_left] at h

theorem length_pos_of_look {c : Cursor} {char : Char} (h : c.look = some char) :
    0 < c.rest.length := by
  obtain ⟨b, hb, _⟩ := Option.map_eq_some_iff.1 h
  exact length_pos_of_current hb

theorem length_pos_of_not_isEnd {c : Cursor} (h : ¬c.isEnd = true) : 0 < c.rest.length := by
  apply List.length_pos_iff.2
  intro none_left
  simp [isEnd, none_left] at h

theorem length_advance_lt {c : Cursor} {b : UInt8} (h : c.current = some b) :
    c.advance.rest.length < c.rest.length := by
  have pos := length_pos_of_current h
  rw [length_advance]
  omega

theorem length_skipWhile_le (c : Cursor) (p : UInt8 → Bool) :
    (c.skipWhile p).rest.length ≤ c.rest.length := by
  rw [skipWhile, length_advanceBy]
  omega

theorem length_skipWhile_lt {c : Cursor} {p : UInt8 → Bool} (h : c.current.any p = true) :
    (c.skipWhile p).rest.length < c.rest.length := by
  rw [skipWhile, length_advanceBy]
  cases rest_eq : c.rest with
  | nil => simp [current, rest_eq] at h
  | cons first rest =>
    have sat : p first = true := by simpa [current, rest_eq] using h
    simp only [List.takeWhile_cons, sat, if_true, List.length_cons]
    omega

theorem length_consume?_lt {c after : Cursor} {b : UInt8} (h : c.consume? b = some after) :
    after.rest.length < c.rest.length := by
  unfold consume? at h
  split at h
  · rename_i here
    cases h
    exact length_advance_lt here
  · cases h

theorem length_skipOptional_le (c : Cursor) (b : UInt8) :
    (c.skipOptional b).rest.length ≤ c.rest.length := by
  unfold skipOptional
  cases h : c.consume? b with
  | none => simp
  | some after => simpa using Nat.le_of_lt (length_consume?_lt h)

theorem length_of_startsWith {c : Cursor} {word : String} (h : c.startsWith word = true) :
    word.length ≤ c.rest.length := by
  have le := (List.isPrefixOf_iff_prefix.1 h).length_le
  rwa [List.length_map, String.length_toList] at le

theorem length_skipPast_le {c after : Cursor} {word : String}
    (h : c.skipPast word = .ok after) : after.rest.length ≤ c.rest.length := by
  unfold skipPast at h
  split at h
  · cases h
    rw [length_advanceBy]
    omega
  · cases h

end Cursor

end ScoreScript
