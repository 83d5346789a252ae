import ScoreScript.Decimal.Digits
import ScoreScript.Decimal.Text
import ScoreScript.Error
import ScoreScript.Script.Token
import ScoreScript.Source.Cursor
import ScoreScript.Text.Utf8

/-!
Number and string literals of scripts. A string literal is read part by part; what follows a
backslash may stand for a character, for nothing, or for itself.
-/

namespace ScoreScript.Script.Literal

private def fail {α : Type} (e : LexicalError) (p : Pos) : Except Error α :=
  .error (.point (.lexical e) p)

def isIdentStart (b : UInt8) : Bool :=
  (0x41 ≤ b && b ≤ 0x5A) || (0x61 ≤ b && b ≤ 0x7A) || b == 0x5F || 0x80 ≤ b

def isIdentByte (b : UInt8) : Bool :=
  isIdentStart b || Cursor.isDigit b

/-! ### Numbers -/

def isDigitByte (b : UInt8) : Bool :=
  Cursor.isDigit b || b == 0x5F

/-- The bytes that may follow the mark of a base. -/
def isBaseByte (b : UInt8) : Bool :=
  b < 0x80 && isIdentByte b

/-- The characters between two cursors, all of them ASCII. -/
def written (start now : Cursor) : List Char :=
  (start.upTo now).map Char.ofUInt8

def badNumber {α : Type} (start now : Cursor) : Except Error α :=
  fail (.number (String.ofList (written start now))) start.pos

/-- The base that a number begins with. -/
def baseOf (c : Cursor) : Nat :=
  if c.look = some '0' then
    match c.lookAt 1 with
    | some 'x' | some 'X' => 16
    | some 'o' | some 'O' => 8
    | some 'b' | some 'B' => 2
    | _ => 10
  else 10

/-- Pass a point and the digits after it. -/
def fraction (c : Cursor) : Option Cursor :=
  (c.consume? 0x2E).map (·.skipWhile isDigitByte)

/-- Pass an exponent; digits must follow its mark and sign. -/
def exponent (start c : Cursor) : Except Error (Option Cursor) :=
  if c.look = some 'e' ∨ c.look = some 'E' then
    let c := c.advance
    let c := if c.look = some '+' ∨ c.look = some '-' then c.advance else c
    if c.current.any Cursor.isDigit then .ok (some (c.skipWhile isDigitByte))
    else badNumber start c
  else .ok none

/-- The end of a number in base ten, and whether it is a float. -/
def decimalEnd (start : Cursor) : Except Error (Cursor × Bool) := do
  let whole := start.skipWhile isDigitByte
  let pointed := fraction whole
  let raised ← exponent start (pointed.getD whole)
  pure (raised.getD (pointed.getD whole), pointed.isSome || raised.isSome)

/-- An integer in range, written by the digits of a base. -/
def int? (base : Nat) (digits : List Char) : Option TokenKind :=
  (number? base (twoTo 63) digits).map fun n => .int n

/-- The end of a number in any base, and whether it is a float. -/
def numberEnd (start : Cursor) : Except Error (Cursor × Bool) :=
  if baseOf start = 10 then decimalEnd start
  else .ok ((start.advanceBy 2).skipWhile isBaseByte, false)

/-- The token that a number's characters spell. Underscores have no meaning. -/
def numberKind (base : Nat) (isFloat : Bool) (written : List Char) : Option TokenKind :=
  let digits := written.filter (· ≠ '_')
  if isFloat then (Decimal.float? (String.ofList digits)).map TokenKind.float
  else int? base (if base = 10 then digits else digits.drop 2)

def readNumber (start : Cursor) : Except Error (TokenKind × Cursor) := do
  let (stop, isFloat) ← numberEnd start
  match numberKind (baseOf start) isFloat (written start stop) with
  | some kind => if stop.current.any isIdentByte then badNumber start stop else pure (kind, stop)
  | none => badNumber start stop

/-! ### Strings -/

/-- How a string literal is written: its flavour, and whether backslashes are kept. -/
structure StringForm where
  kind : StringKind
  raw : Bool
  deriving DecidableEq, Repr

/-- The form that the letters before the quotes ask for, in either case. -/
def formOf? (letters : String) : Option StringForm :=
  match letters.toList.map Char.toLower with
  | ['u'] => some ⟨.text, false⟩
  | ['r'] => some ⟨.text, true⟩
  | ['b'] => some ⟨.bytes, false⟩
  | ['f'] => some ⟨.format, false⟩
  | ['r', 'b'] | ['b', 'r'] => some ⟨.bytes, true⟩
  | ['f', 'r'] | ['r', 'f'] => some ⟨.format, true⟩
  | _ => none

/-- The character named by a letter after a backslash. -/
def escapeOf : Char → Option Char
  | 'n' => some '\n'
  | 't' => some '\t'
  | 'r' => some '\r'
  | 'a' => some '\x07'
  | 'b' => some '\x08'
  | 'f' => some '\x0C'
  | 'v' => some '\x0B'
  | '\\' => some '\\'
  | '\'' => some '\''
  | '"' => some '"'
  | _ => none

/-- How many hexadecimal digits follow a letter after a backslash. -/
def hexCount : Char → Option Nat
  | 'x' => some 2
  | 'u' => some 4
  | 'U' => some 8
  | _ => none

/-- The character with a number, written by an escape of so many bytes. -/
def numbered (place : Pos) (n : Option Nat) (length : Nat) :
    Except Error (List UInt8 × Nat) :=
  match n.bind char? with
  | some char => .ok (String.utf8EncodeChar char, length)
  | none => fail .escape place

/-- What the bytes after a backslash stand for, and how many they are. Bytes that stand for
nothing known leave the backslash in the text and are read again. -/
def escape (c : Cursor) : Except Error (List UInt8 × Nat) :=
  match c.look with
  | none => fail .openString c.pos
  | some '\n' => .ok ([], 1)
  | some '\r' => .ok ([], if c.lookAt 1 = some '\n' then 2 else 1)
  | some 'N' => fail .escape c.pos
  | some letter =>
    match escapeOf letter, hexCount letter with
    | some char, _ => .ok (String.utf8EncodeChar char, 1)
    | none, some count =>
      let digits := ((c.rest.drop 1).take count).map Char.ofUInt8
      let n := if digits.length = count then number? 16 charLimit digits else none
      numbered c.pos n (count + 1)
    | none, none =>
      let digits := ((c.rest.take 3).map Char.ofUInt8).takeWhile fun d => (digit? 8 d).isSome
      if digits.isEmpty then .ok ([0x5C], 0)
      else numbered c.pos (number? 8 charLimit digits) digits.length

/-- What stands at one place inside a string literal. -/
inductive StringPart where
  /-- The closing quotes, so many bytes. -/
  | close (length : Nat)
  /-- Bytes of the value, written by one byte and `extra` more. -/
  | bytes (bytes : List UInt8) (extra : Nat)

/-- The quotes around a literal: which, and whether they are tripled. -/
structure Quotes where
  mark : UInt8
  triple : Bool
  deriving DecidableEq, Repr

/-- The part of a literal that begins with the byte `b` at the cursor. -/
def stringPart (quotes : Quotes) (form : StringForm) (start : Pos) (c : Cursor) (b : UInt8) :
    Except Error StringPart :=
  if b = quotes.mark then
    if !quotes.triple then .ok (.close 1)
    else if c.peekBytes 3 = some [b, b, b] then .ok (.close 3)
    else .ok (.bytes [b] 0)
  else if (b = 0x0A ∨ b = 0x0D) ∧ !quotes.triple then fail .openString start
  else if b = 0x5C then
    if form.raw then
      match c.peek 1 with
      | some next => .ok (.bytes [b, next] 1)
      | none => .ok (.bytes [b] 0)
    else (escape c.advance).map fun (bytes, length) => .bytes bytes length
  else .ok (.bytes [b] 0)

/-- The token of a literal whose closing quotes were read. -/
def closeString (form : StringForm) (start : Pos) (read : List UInt8) (after : Cursor) :
    Except Error (TokenKind × Cursor) :=
  match ofUtf8? read.reverse with
  | some value => .ok (.string value form.kind, after)
  | none => fail .utf8 start

/-- The rest of a string literal, after the bytes `read`, last first. -/
def stringRest (quotes : Quotes) (form : StringForm) (start : Pos) (c : Cursor)
    (read : List UInt8) : Except Error (TokenKind × Cursor) :=
  match rest_eq : c.rest with
  | [] => fail .openString start
  | b :: rest =>
    match stringPart quotes form start c b with
    | .error e => .error e
    | .ok (.close length) => closeString form start read (c.advanceBy length)
    | .ok (.bytes bytes extra) =>
      have _ : (c.advanceBy (extra + 1)).rest.length < c.rest.length := by
        rw [Cursor.length_advanceBy, rest_eq, List.length_cons]
        omega
      stringRest quotes form start (c.advanceBy (extra + 1)) (bytes.reverse ++ read)
termination_by c.rest.length

/-- The string literal whose opening quotes stand at the cursor. -/
def readString (form : StringForm) (c : Cursor) : Except Error (TokenKind × Cursor) :=
  match c.current with
  | none => fail .openString c.pos
  | some mark =>
    let triple := c.peekBytes 3 == some [mark, mark, mark]
    stringRest ⟨mark, triple⟩ form c.pos (c.advanceBy (if triple then 3 else 1)) []

/-! ### Reading a literal moves forward -/

theorem length_fraction_lt {c after : Cursor} (h : fraction c = some after) :
    after.rest.length < c.rest.length := by
  obtain ⟨point, here, rfl⟩ := Option.map_eq_some_iff.1 h
  exact Nat.lt_of_le_of_lt (Cursor.length_skipWhile_le _ _) (Cursor.length_consume?_lt here)

theorem length_exponent_le {start c after : Cursor} (h : exponent start c = .ok (some after)) :
    after.rest.length ≤ c.rest.length := by
  have mark := Cursor.length_advance_le c
  have signed := Cursor.length_advance_le c.advance
  unfold exponent at h
  split at h
  · simp only [] at h
    split at h <;> split at h
    · cases h
      have digits := Cursor.length_skipWhile_le c.advance.advance isDigitByte
      omega
    · cases h
    · cases h
      have digits := Cursor.length_skipWhile_le c.advance isDigitByte
      omega
    · cases h
  · cases h

theorem length_decimalEnd_lt {start stop : Cursor} {isFloat : Bool}
    (first : start.current.any Cursor.isDigit = true ∨ start.current = some 0x2E)
    (h : decimalEnd start = .ok (stop, isFloat)) : stop.rest.length < start.rest.length := by
  have whole := Cursor.length_skipWhile_le start isDigitByte
  have pointed : ((fraction (start.skipWhile isDigitByte)).getD
      (start.skipWhile isDigitByte)).rest.length < start.rest.length := by
    cases point : fraction (start.skipWhile isDigitByte) with
    | some after => exact Nat.lt_of_lt_of_le (length_fraction_lt point) whole
    | none =>
      rcases first with digit | dot
      · refine Cursor.length_skipWhile_lt ?_
        obtain ⟨b, here, isDigit⟩ := (Option.any_eq_true _ _).1 digit
        exact (Option.any_eq_true _ _).2 ⟨b, here, by simp [isDigitByte, isDigit]⟩
      · exfalso
        have stays : start.skipWhile isDigitByte = start := by
          cases rest_eq : start.rest with
          | nil => simp [Cursor.current, rest_eq] at dot
          | cons b rest =>
            have eq : b = 0x2E := by simpa [Cursor.current, rest_eq] using dot
            subst eq
            simp [Cursor.skipWhile, Cursor.advanceBy, rest_eq, isDigitByte, Cursor.isDigit,
              Pos.after]
            cases start
            simp_all
        rw [stays] at point
        simp [fraction, Cursor.consume?, dot] at point
  unfold decimalEnd at h
  simp only [bind, Except.bind, pure, Except.pure] at h
  split at h
  · cases h
  · rename_i raised raised_eq
    cases h
    cases raised with
    | none => exact pointed
    | some after => exact Nat.lt_of_le_of_lt (length_exponent_le raised_eq) pointed

theorem length_numberEnd_lt {start stop : Cursor} {isFloat : Bool}
    (first : start.current.any Cursor.isDigit = true ∨ start.current = some 0x2E)
    (h : numberEnd start = .ok (stop, isFloat)) : stop.rest.length < start.rest.length := by
  unfold numberEnd at h
  split at h
  · exact length_decimalEnd_lt first h
  · cases h
    have le := Cursor.length_skipWhile_le (start.advanceBy 2) isBaseByte
    rw [Cursor.length_advanceBy] at le
    have pos : 0 < start.rest.length := by
      rcases first with digit | dot
      · obtain ⟨b, here, _⟩ := (Option.any_eq_true _ _).1 digit
        exact Cursor.length_pos_of_current here
      · exact Cursor.length_pos_of_current dot
    omega

theorem length_readNumber_lt {start after : Cursor} {kind : TokenKind}
    (first : start.current.any Cursor.isDigit = true ∨ start.current = some 0x2E)
    (h : readNumber start = .ok (kind, after)) : after.rest.length < start.rest.length := by
  unfold readNumber at h
  simp only [bind, Except.bind, pure, Except.pure] at h
  split at h
  · cases h
  · rename_i stop stop_eq
    have lt := length_numberEnd_lt first stop_eq
    split at h
    · split at h
      · cases h
      · cases h
        exact lt
    · cases h

theorem length_closeString_le {form : StringForm} {start : Pos} {read : List UInt8}
    {c after : Cursor} {kind : TokenKind} (h : closeString form start read c = .ok (kind, after)) :
    after.rest.length ≤ c.rest.length := by
  unfold closeString at h
  split at h
  · cases h
    exact Nat.le_refl _
  · cases h

theorem length_stringRest_le {quotes : Quotes} {form : StringForm} {start : Pos}
    {c after : Cursor} {read : List UInt8} {kind : TokenKind}
    (h : stringRest quotes form start c read = .ok (kind, after)) :
    after.rest.length ≤ c.rest.length := by
  fun_induction stringRest quotes form start c read with
  | case1 => cases h
  | case2 => cases h
  | case3 c =>
    have le := length_closeString_le h
    rw [Cursor.length_advanceBy] at le
    omega
  | case4 c _ _ _ _ _ _ _ shorter ih => exact Nat.le_trans (ih h) (Nat.le_of_lt shorter)

theorem length_readString_lt {form : StringForm} {c after : Cursor} {kind : TokenKind}
    (h : readString form c = .ok (kind, after)) : after.rest.length < c.rest.length := by
  unfold readString at h
  split at h
  · cases h
  · rename_i mark here
    have pos := Cursor.length_pos_of_current here
    have le := length_stringRest_le h
    rw [Cursor.length_advanceBy] at le
    split at le <;> omega

end ScoreScript.Script.Literal
