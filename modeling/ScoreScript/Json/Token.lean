import ScoreScript.Decimal.Digits
import ScoreScript.Decimal.Text
import ScoreScript.Error
import ScoreScript.Source.Cursor
import ScoreScript.Source.Position
import ScoreScript.Text.Utf8

/-!
The tokens of JSON data files. Comments may stand wherever white space may, if they are
allowed. Tokens are read up to the end of the text or up to the first error.
-/

namespace ScoreScript.Json

inductive TokenKind where
  | leftBrace | rightBrace | leftBracket | rightBracket | colon | comma
  | null | true | false
  | string (text : String)
  | number (x : Float)
  | eof
  deriving Repr, Inhabited

namespace TokenKind

/-- The wording of a token in messages. -/
def text : TokenKind → String
  | leftBrace => "'\x7b'"
  | rightBrace => "'\x7d'"
  | leftBracket => "'['"
  | rightBracket => "']'"
  | colon => "':'"
  | comma => "','"
  | null | true | false => "literal"
  | string s => "string " ++ quoted s
  | number x => "number " ++ Decimal.plainText x
  | eof => "end of file"

end TokenKind

private def fail {α : Type} (e : LexicalError) (p : Pos) : Except Error α :=
  .error (.point (.lexical e) p)

/-- Pass the comment that the slash at the cursor must begin. -/
def skipComment (c : Cursor) : Except Error Cursor :=
  match c.lookAt 1 with
  | some '/' => .ok ((c.advanceBy 2).skipWhile (· != 0x0A)).advance
  | some '*' =>
    match (c.advanceBy 2).skipPast "*/" with
    | .ok after => .ok after
    | .error stop => fail .openString stop.pos
  | _ => fail (.character '/') c.pos

theorem length_skipComment_lt {c after : Cursor} (nonempty : 0 < c.rest.length)
    (h : skipComment c = .ok after) : after.rest.length < c.rest.length := by
  unfold skipComment at h
  split at h
  · cases h
    have le := Cursor.length_skipWhile_le (c.advanceBy 2) (· != 0x0A)
    rw [Cursor.length_advanceBy] at le
    rw [Cursor.length_advance]
    omega
  · split at h
    · rename_i past
      cases h
      have le := Cursor.length_skipPast_le past
      rw [Cursor.length_advanceBy] at le
      omega
    · cases h
  · cases h

/-- Pass white space and, if they are allowed, comments. -/
def skipIgnorable (comments : Bool) (c : Cursor) : Except Error Cursor :=
  if slash : comments = true ∧ c.skipWhitespace.look = some '/' then
    match comment : skipComment c.skipWhitespace with
    | .ok after =>
      have _ : after.rest.length < c.rest.length :=
        Nat.lt_of_lt_of_le (length_skipComment_lt (Cursor.length_pos_of_look slash.2) comment)
          (Cursor.length_skipWhile_le c _)
      skipIgnorable comments after
    | .error e => .error e
  else .ok c.skipWhitespace
termination_by c.rest.length

theorem length_skipIgnorable_le {comments : Bool} {c after : Cursor}
    (h : skipIgnorable comments c = .ok after) : after.rest.length ≤ c.rest.length := by
  fun_induction skipIgnorable comments c with
  | case1 c slash next comment _ ih =>
    have lt := length_skipComment_lt (Cursor.length_pos_of_look slash.2) comment
    have le : c.skipWhitespace.rest.length ≤ c.rest.length := Cursor.length_skipWhile_le c _
    have step := ih h
    omega
  | case2 => cases h
  | case3 c =>
    cases h
    exact Cursor.length_skipWhile_le c _

/-- The character named by the letter after a backslash. -/
def escapeOf : Char → Option Char
  | '"' => some '"'
  | '\\' => some '\\'
  | '/' => some '/'
  | 'b' => some '\x08'
  | 'f' => some '\x0C'
  | 'n' => some '\n'
  | 'r' => some '\r'
  | 't' => some '\t'
  | _ => none

/-- The next `count` hexadecimal digits, read after others of value `value`. -/
def hexValue (count value : Nat) (c : Cursor) : Except Error Nat :=
  match count with
  | 0 => .ok value
  | count + 1 =>
    match c.look.bind (digit? 16) with
    | some digit => hexValue count (value * 16 + digit) c.advance
    | none => fail .escape c.pos

/-- The character of a four-digit escape. Surrogates are no characters. -/
def unicodeEscape (c : Cursor) : Except Error Char := do
  match char? (← hexValue 4 0 c) with
  | some char => pure char
  | none => fail .escape c.pos

/-- What stands at one place inside a string literal. -/
inductive StringPart where
  | close
  /-- Bytes of the text, written by one byte and `extra` more. -/
  | bytes (bytes : List UInt8) (extra : Nat)

/-- The part of a string literal that begins with the byte `b` at the cursor. -/
def stringPart (c : Cursor) (b : UInt8) : Except Error StringPart :=
  match Char.ofUInt8 b with
  | '"' => .ok .close
  | '\\' =>
    match c.lookAt 1 with
    | some 'u' =>
      (unicodeEscape (c.advanceBy 2)).map fun char => .bytes (String.utf8EncodeChar char) 5
    | some letter =>
      match escapeOf letter with
      | some char => .ok (.bytes (String.utf8EncodeChar char) 1)
      | none => fail .escape (c.advanceBy 1).pos
    | none => fail .escape (c.advanceBy 1).pos
  | char => if b < 0x20 then fail (.character char) c.pos else .ok (.bytes [b] 0)

/-- The text of a string literal whose closing quote was read. -/
def closeString (read : List UInt8) (after : Cursor) : Except Error (String × Cursor) :=
  match ofUtf8? read.reverse with
  | some text => .ok (text, after)
  | none => fail .utf8 after.pos

/-- The rest of a string literal, after the bytes `read`, last first. -/
def stringRest (c : Cursor) (read : List UInt8) : Except Error (String × Cursor) :=
  match rest_eq : c.rest with
  | [] => fail .openString c.pos
  | b :: rest =>
    match stringPart c b with
    | .error e => .error e
    | .ok .close => closeString read c.advance
    | .ok (.bytes bytes extra) =>
      have _ : (c.advanceBy (extra + 1)).rest.length < c.rest.length := by
        rw [Cursor.length_advanceBy, rest_eq, List.length_cons]
        omega
      stringRest (c.advanceBy (extra + 1)) (bytes.reverse ++ read)
termination_by c.rest.length

theorem length_closeString_le {read : List UInt8} {c after : Cursor} {text : String}
    (h : closeString read c = .ok (text, after)) : after.rest.length ≤ c.rest.length := by
  unfold closeString at h
  split at h
  · cases h
    exact Nat.le_refl _
  · cases h

theorem length_stringRest_le {c after : Cursor} {read : List UInt8} {text : String}
    (h : stringRest c read = .ok (text, after)) : after.rest.length ≤ c.rest.length := by
  fun_induction stringRest c read with
  | case1 => cases h
  | case2 => cases h
  | case3 => exact Nat.le_trans (length_closeString_le h) (Cursor.length_advance_le _)
  | case4 c _ _ _ _ _ _ _ shorter ih => exact Nat.le_trans (ih h) (Nat.le_of_lt shorter)

/-- The number between two cursors, all of whose bytes are ASCII. -/
def numberText (start now : Cursor) : String :=
  String.ofList ((start.upTo now).map Char.ofUInt8)

def startsDigit (c : Cursor) : Bool :=
  c.current.any Cursor.isDigit

def skipDigits (c : Cursor) : Cursor :=
  c.skipWhile Cursor.isDigit

/-- Pass the digits that must follow here. -/
def someDigits (start c : Cursor) : Except Error Cursor :=
  if startsDigit c then .ok (skipDigits c)
  else fail (.number (numberText start c)) c.pos

/-- The whole part of a number: a single zero, or digits that do not begin with one. -/
def wholePart (start c : Cursor) : Except Error Cursor :=
  if c.look = some '0' then .ok c.advance else someDigits start c

def fractionPart (start c : Cursor) : Except Error Cursor :=
  match c.consume? 0x2E with
  | some c => someDigits start c
  | none => .ok c

def exponentPart (start c : Cursor) : Except Error Cursor :=
  if c.look = some 'e' ∨ c.look = some 'E' then
    let c := c.advance
    someDigits start (if c.look = some '+' ∨ c.look = some '-' then c.advance else c)
  else .ok c

def readNumber (start : Cursor) : Except Error (TokenKind × Cursor) := do
  let c := start.skipOptional 0x2D
  let c ← wholePart start c
  let c ← fractionPart start c
  let c ← exponentPart start c
  match Decimal.float? (numberText start c) with
  | some x => pure (.number x, c)
  | none => fail (.number (numberText start c)) c.pos

def readWord (c : Cursor) (word : String) (kind : TokenKind) :
    Except Error (TokenKind × Cursor) :=
  if c.startsWith word then .ok (kind, c.advanceBy word.length)
  else fail (.character (c.look.getD '?')) c.pos

/-- The token that begins with the byte `b` at the cursor. -/
def readKind (c : Cursor) (b : UInt8) : Except Error (TokenKind × Cursor) :=
  match Char.ofUInt8 b with
  | '\x7b' => .ok (.leftBrace, c.advance)
  | '\x7d' => .ok (.rightBrace, c.advance)
  | '[' => .ok (.leftBracket, c.advance)
  | ']' => .ok (.rightBracket, c.advance)
  | ':' => .ok (.colon, c.advance)
  | ',' => .ok (.comma, c.advance)
  | '"' => do
    let (text, c) ← stringRest c.advance []
    pure (.string text, c)
  | 'n' => readWord c "null" .null
  | 't' => readWord c "true" .true
  | 'f' => readWord c "false" .false
  | char =>
    if char = '-' ∨ Cursor.isDigit b then readNumber c
    else fail (.character char) c.pos

theorem length_someDigits_lt {start c after : Cursor} (h : someDigits start c = .ok after) :
    after.rest.length < c.rest.length := by
  unfold someDigits at h
  split at h
  · rename_i digit
    cases h
    exact Cursor.length_skipWhile_lt digit
  · cases h

theorem length_wholePart_lt {start c after : Cursor} (h : wholePart start c = .ok after) :
    after.rest.length < c.rest.length := by
  unfold wholePart at h
  split at h
  · rename_i zero
    cases h
    have pos := Cursor.length_pos_of_look zero
    rw [Cursor.length_advance]
    omega
  · exact length_someDigits_lt h

theorem length_fractionPart_le {start c after : Cursor} (h : fractionPart start c = .ok after) :
    after.rest.length ≤ c.rest.length := by
  unfold fractionPart at h
  split at h
  · rename_i point
    exact Nat.le_of_lt
      (Nat.lt_trans (length_someDigits_lt h) (Cursor.length_consume?_lt point))
  · cases h
    exact Nat.le_refl _

theorem length_exponentPart_le {start c after : Cursor} (h : exponentPart start c = .ok after) :
    after.rest.length ≤ c.rest.length := by
  have mark := Cursor.length_advance_le c
  have signed := Cursor.length_advance_le c.advance
  unfold exponentPart at h
  split at h
  · have digits := length_someDigits_lt h
    split at digits <;> omega
  · cases h
    exact Nat.le_refl _

theorem length_readNumber_lt {start after : Cursor} {kind : TokenKind}
    (h : readNumber start = .ok (kind, after)) : after.rest.length < start.rest.length := by
  have first := Cursor.length_skipOptional_le start 0x2D
  unfold readNumber at h
  cases whole : wholePart start (start.skipOptional 0x2D) with
  | error e => simp [whole, bind, Except.bind] at h
  | ok c =>
    have second := length_wholePart_lt whole
    cases fraction : fractionPart start c with
    | error e => simp [whole, fraction, bind, Except.bind] at h
    | ok c' =>
      have third := length_fractionPart_le fraction
      cases exponent : exponentPart start c' with
      | error e => simp [whole, fraction, exponent, bind, Except.bind] at h
      | ok c'' =>
        have fourth := length_exponentPart_le exponent
        simp only [whole, fraction, exponent, bind, Except.bind] at h
        split at h
        · cases h
          omega
        · cases h

theorem length_readWord_lt {c after : Cursor} {word : String} {kind kind' : TokenKind}
    (pos : 0 < c.rest.length) (long : 0 < word.length)
    (h : readWord c word kind = .ok (kind', after)) : after.rest.length < c.rest.length := by
  unfold readWord at h
  split at h
  · cases h
    rw [Cursor.length_advanceBy]
    omega
  · cases h

/-- Reading a token always moves forward. -/
theorem length_readKind_lt {c after : Cursor} {b : UInt8} {kind : TokenKind}
    (here : c.current = some b) (h : readKind c b = .ok (kind, after)) :
    after.rest.length < c.rest.length := by
  have pos := Cursor.length_pos_of_current here
  have step := Cursor.length_advance_lt here
  unfold readKind at h
  split at h
  case h_7 =>
    cases string : stringRest c.advance [] with
    | error e => simp [string, bind, Except.bind] at h
    | ok result =>
      simp only [string, bind, Except.bind, pure, Except.pure] at h
      cases h
      exact Nat.lt_of_le_of_lt (length_stringRest_le string) step
  case h_8 | h_9 | h_10 => exact length_readWord_lt pos (by decide) h
  case h_11 =>
    split at h
    · exact length_readNumber_lt h
    · cases h
  all_goals
    cases h
    exact step

/-- The tokens of a text and how it ends: at a place, or with an error. -/
structure Stream where
  tokens : List (Token TokenKind)
  final : Except Error Span

namespace Stream

/-- Read tokens up to the end of the text, or as long as there are no errors. -/
def read (comments : Bool) (c : Cursor) (before : List (Token TokenKind)) : Stream :=
  match ignored : skipIgnorable comments c with
  | .error e => ⟨before.reverse, .error e⟩
  | .ok start =>
    match here : start.current with
    | none => ⟨before.reverse, .ok (.point start.pos)⟩
    | some b =>
      match token : readKind start b with
      | .error e => ⟨before.reverse, .error e⟩
      | .ok (kind, after) =>
        have _ : after.rest.length < c.rest.length :=
          Nat.lt_of_lt_of_le (length_readKind_lt here token) (length_skipIgnorable_le ignored)
        read comments after (⟨kind, ⟨start.pos, after.pos⟩⟩ :: before)
termination_by c.rest.length

def ofBytes (comments : Bool) (bytes : List UInt8) : Stream :=
  read comments (.ofBytes bytes) []

/-- The next token; past the last one, the end of the text or its error. -/
def next (s : Stream) : Except Error (Token TokenKind × Stream) :=
  match s.tokens with
  | t :: rest => .ok (t, ⟨rest, s.final⟩)
  | [] => s.final.map fun span => (⟨.eof, span⟩, s)

end Stream

end ScoreScript.Json
