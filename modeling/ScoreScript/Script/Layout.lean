import ScoreScript.Script.Literal

/-!
The tokens of a script, layout included. A line ends where it is written to end, unless a
bracket is open or a backslash stands before its end. A line that begins further to the right
than the block it stands in opens a block, and one further to the left closes blocks; lines with
nothing but blanks or a comment do neither.
-/

namespace ScoreScript.Script

private def fail {α : Type} (e : LexicalError) (p : Pos) : Except Error α :=
  .error (.point (.lexical e) p)

/-- How far reading has come: the rest of the text, the indentation of the open blocks, innermost
first, the number of open brackets, whether a line begins here, and the tokens so far, last
first. -/
structure Layout where
  cursor : Cursor
  levels : List Nat
  brackets : Nat
  lineStart : Bool
  tokens : List (Token TokenKind)

namespace Layout

def start (bytes : List UInt8) : Layout :=
  ⟨.ofBytes bytes, [], 0, true, []⟩

def emit (s : Layout) (kind : TokenKind) (span : Span) : Layout :=
  { s with tokens := ⟨kind, span⟩ :: s.tokens }

/-- Whether a line with tokens has not been ended yet. -/
def needsNewline (s : Layout) : Bool :=
  match s.tokens with
  | [] => false
  | last :: _ => !last.kind.isLayout

def isLineBreak (b : UInt8) : Bool :=
  b == 0x0A || b == 0x0D

def tabWidth : Nat := 8

/-- The column reached after a blank. A tab goes on to the next tab stop, and a form feed goes
back to the margin. -/
def widen (width : Nat) (b : UInt8) : Nat :=
  if b = 0x20 then width + 1
  else if b = 0x09 then (width / tabWidth + 1) * tabWidth
  else 0

/-- Pass a line break, which may be of two bytes. -/
def passBreak (c : Cursor) : Cursor :=
  if c.look = some '\r' then c.advance.skipOptional 0x0A else c.advance

/-- Pass a comment up to the end of its line. -/
def passComment (c : Cursor) : Cursor :=
  c.advance.skipWhile (!isLineBreak ·)

/-- Close the blocks that a line of this indentation is not part of. -/
def closeBlocks (width : Nat) (span : Span) (s : Layout) : List Nat → Layout
  | [] => { s with levels := [] }
  | level :: outer =>
    if width < level then closeBlocks width span (s.emit .dedent span) outer
    else { s with levels := level :: outer }

/-- Open or close blocks for a line whose text begins at `c`. -/
def indentTo (width : Nat) (span : Span) (s : Layout) : Except Error Layout :=
  let level := s.levels.headD 0
  if level < width then .ok { s.emit .indent span with levels := width :: s.levels }
  else
    let closed := closeBlocks width span s s.levels
    if closed.levels.headD 0 = width then .ok closed else fail .indentation span.stop

/-- Read the blanks at the start of a line. The flag tells whether there is anything on the
line; if not, the line has been passed. -/
def beginLine (s : Layout) : Except Error (Layout × Bool) :=
  let c := s.cursor.skipBlanks
  match c.look with
  | none => .ok ({ s with cursor := c, lineStart := false }, true)
  | some '\\' => .ok ({ s with cursor := c }, true)
  | some '#' => .ok ({ s with cursor := passBreak (passComment c) }, false)
  | some '\n' | some '\r' => .ok ({ s with cursor := passBreak c }, false)
  | some _ =>
    let width := (s.cursor.upTo c).foldl widen 0
    (indentTo width ⟨s.cursor.pos, c.pos⟩ { s with cursor := c, lineStart := false }).map
      (·, true)

/-- The token of a word: a string literal if quotes follow it and it is one of their prefixes,
else a reserved word or a name. -/
def readWord (c : Cursor) : Except Error (TokenKind × Cursor) :=
  let after := c.skipWhile Literal.isIdentByte
  match ofUtf8? (c.upTo after) with
  | none => fail .utf8 c.pos
  | some word =>
    let form := if after.look = some '"' ∨ after.look = some '\'' then Literal.formOf? word else none
    match form, Keyword.ofText? word with
    | some form, _ => Literal.readString form after
    | none, some keyword => .ok (.keyword keyword, after)
    | none, none => .ok (.name word, after)

/-- The longest operator that stands here. -/
def readOperator (c : Cursor) (b : UInt8) : Except Error (TokenKind × Cursor) :=
  match Operator.all.find? fun op => c.startsWith op.text with
  | some op => .ok (.op op, c.advanceBy op.text.length)
  | none => fail (.character (Char.ofUInt8 b)) c.pos

/-- The token that begins with the byte `b` at the cursor. -/
def readToken (c : Cursor) (b : UInt8) : Except Error (TokenKind × Cursor) :=
  if b = 0x22 ∨ b = 0x27 then Literal.readString ⟨.text, false⟩ c
  else if Cursor.isDigit b ∨ (b = 0x2E ∧ (c.peek 1).any Cursor.isDigit) then
    Literal.readNumber c
  else if Literal.isIdentStart b then readWord c
  else readOperator c b

/-- The number of open brackets after a token; a bracket too many closes nothing. -/
def countBrackets (brackets : Nat) : TokenKind → Nat
  | .op sign =>
    if sign.isOpening then brackets + 1 else if sign.isClosing then brackets - 1 else brackets
  | _ => brackets

/-- Pass what stands at the cursor inside a line, if there is anything left. -/
def readItem (s : Layout) : Except Error (Option Layout) :=
  let c := s.cursor.skipBlanks
  match c.current with
  | none => .ok none
  | some b =>
    match Char.ofUInt8 b with
    | '#' => .ok (some { s with cursor := passComment c })
    | '\\' =>
      match (c.advance.skipOptional 0x0D).consume? 0x0A with
      | some after => .ok (some { s with cursor := after })
      | none => fail (.character '\\') c.pos
    | '\n' | '\r' =>
      let after := passBreak c
      if s.brackets = 0 then
        let next := { s with cursor := after, lineStart := true }
        .ok (some (if s.needsNewline then next.emit .newline ⟨c.pos, after.pos⟩ else next))
      else .ok (some { s with cursor := after })
    | _ =>
      (readToken c b).map fun (kind, after) =>
        some
          ({ s with cursor := after, brackets := countBrackets s.brackets kind }.emit kind
            ⟨c.pos, after.pos⟩)

/-- Pass a line without text, or the next item of a line. At the end of the text there is
nothing to pass. -/
def step (s : Layout) : Except Error (Option Layout) :=
  if s.lineStart && s.brackets == 0 then
    match beginLine s with
    | .error e => .error e
    | .ok (next, false) => .ok (some next)
    | .ok (next, true) => readItem next
  else readItem s

/-- The tokens of a text that has been read to its end: its last line ends, its blocks close. -/
def finish (s : Layout) (stop : Pos) : List (Token TokenKind) :=
  let span := Span.point stop
  let s := if s.needsNewline then s.emit .newline span else s
  let s := s.levels.foldl (fun s _ => s.emit .dedent span) s
  (s.emit .eof span).tokens.reverse

/-! ### Every step moves forward -/

theorem length_passBreak_le (c : Cursor) : (passBreak c).rest.length ≤ c.rest.length := by
  unfold passBreak
  have le := Cursor.length_advance_le c
  split
  · exact Nat.le_trans (Cursor.length_skipOptional_le _ _) le
  · exact le

theorem length_passBreak_lt {c : Cursor} (pos : 0 < c.rest.length) :
    (passBreak c).rest.length < c.rest.length := by
  have lt := Cursor.length_advance c
  unfold passBreak
  split
  · have le := Cursor.length_skipOptional_le c.advance 0x0A
    omega
  · omega

theorem length_passComment_lt {c : Cursor} (pos : 0 < c.rest.length) :
    (passComment c).rest.length < c.rest.length := by
  have lt := Cursor.length_advance c
  have le := Cursor.length_skipWhile_le c.advance (!isLineBreak ·)
  unfold passComment
  omega

theorem cursor_closeBlocks (width : Nat) (span : Span) (s : Layout) (levels : List Nat) :
    (closeBlocks width span s levels).cursor = s.cursor := by
  induction levels generalizing s with
  | nil => rfl
  | cons level outer ih =>
    unfold closeBlocks
    split
    · rw [ih]
      rfl
    · rfl

theorem cursor_indentTo {width : Nat} {span : Span} {s next : Layout}
    (h : indentTo width span s = .ok next) : next.cursor = s.cursor := by
  unfold indentTo at h
  simp only [] at h
  split at h
  · cases h
    rfl
  · split at h
    · cases h
      exact cursor_closeBlocks _ _ _ _
    · cases h

/-- A line without text is passed; of another, only blanks are. -/
theorem length_beginLine {s next : Layout} {hasText : Bool}
    (h : beginLine s = .ok (next, hasText)) :
    next.cursor.rest.length ≤ s.cursor.rest.length ∧
      (hasText = false → next.cursor.rest.length < s.cursor.rest.length) := by
  have blanks : s.cursor.skipBlanks.rest.length ≤ s.cursor.rest.length :=
    Cursor.length_skipWhile_le s.cursor _
  unfold beginLine at h
  simp only [] at h
  split at h
  · cases h
    exact ⟨blanks, fun impossible => by cases impossible⟩
  · cases h
    exact ⟨blanks, fun impossible => by cases impossible⟩
  · rename_i here
    cases h
    have comment := length_passComment_lt (Cursor.length_pos_of_look here)
    have ended := length_passBreak_le (passComment s.cursor.skipBlanks)
    simp only []
    exact ⟨by omega, fun _ => by omega⟩
  · rename_i here
    cases h
    have ended := length_passBreak_lt (Cursor.length_pos_of_look here)
    simp only []
    exact ⟨by omega, fun _ => by omega⟩
  · rename_i here
    cases h
    have ended := length_passBreak_lt (Cursor.length_pos_of_look here)
    simp only []
    exact ⟨by omega, fun _ => by omega⟩
  · cases indented : indentTo
        (List.foldl widen 0 (s.cursor.upTo s.cursor.skipBlanks))
        ⟨s.cursor.pos, s.cursor.skipBlanks.pos⟩
        { s with cursor := s.cursor.skipBlanks, lineStart := false } with
    | error e =>
      rw [indented] at h
      cases h
    | ok result =>
      rw [indented] at h
      cases h
      have same := cursor_indentTo indented
      rw [same]
      exact ⟨blanks, fun impossible => by cases impossible⟩

theorem length_readWord_lt {c after : Cursor} {kind : TokenKind}
    (first : c.current.any Literal.isIdentStart = true)
    (h : readWord c = .ok (kind, after)) : after.rest.length < c.rest.length := by
  have named : c.current.any Literal.isIdentByte = true := by
    obtain ⟨b, here, start⟩ := (Option.any_eq_true _ _).1 first
    exact (Option.any_eq_true _ _).2 ⟨b, here, by simp [Literal.isIdentByte, start]⟩
  have lt := Cursor.length_skipWhile_lt named
  unfold readWord at h
  simp only [] at h
  split at h
  · cases h
  · split at h
    · exact Nat.lt_trans (Literal.length_readString_lt h) lt
    · cases h
      exact lt
    · cases h
      exact lt

theorem length_readOperator_lt {c after : Cursor} {b : UInt8} {kind : TokenKind}
    (pos : 0 < c.rest.length) (h : readOperator c b = .ok (kind, after)) :
    after.rest.length < c.rest.length := by
  unfold readOperator at h
  split at h
  · rename_i op _
    cases h
    have long := op.length_text_pos
    rw [Cursor.length_advanceBy]
    omega
  · cases h

theorem length_readToken_lt {c after : Cursor} {b : UInt8} {kind : TokenKind}
    (here : c.current = some b) (h : readToken c b = .ok (kind, after)) :
    after.rest.length < c.rest.length := by
  unfold readToken at h
  split at h
  · exact Literal.length_readString_lt h
  · split at h
    · rename_i number
      refine Literal.length_readNumber_lt ?_ h
      rcases number with digit | ⟨dot, _⟩
      · exact .inl (by simpa [here] using digit)
      · exact .inr (by rw [here, dot])
    · split at h
      · rename_i start
        exact length_readWord_lt (by simpa [here] using start) h
      · exact length_readOperator_lt (Cursor.length_pos_of_current here) h

theorem length_readItem_lt {s next : Layout} (h : readItem s = .ok (some next)) :
    next.cursor.rest.length < s.cursor.rest.length := by
  have blanks : s.cursor.skipBlanks.rest.length ≤ s.cursor.rest.length :=
    Cursor.length_skipWhile_le s.cursor _
  unfold readItem at h
  simp only [] at h
  split at h
  · cases h
  · rename_i b here
    have pos := Cursor.length_pos_of_current here
    have ended := length_passBreak_lt pos
    split at h
    · cases h
      have comment := length_passComment_lt pos
      simp only []
      omega
    · split at h
      · rename_i after joined
        cases h
        have lt := Cursor.length_consume?_lt joined
        have le := Cursor.length_skipOptional_le s.cursor.skipBlanks.advance 0x0D
        have le' := Cursor.length_advance_le s.cursor.skipBlanks
        simp only []
        omega
      · cases h
    · split at h
      · cases h
        split
        · simp only [emit]
          omega
        · simp only []
          omega
      · cases h
        simp only []
        omega
    · split at h
      · cases h
        split
        · simp only [emit]
          omega
        · simp only []
          omega
      · cases h
        simp only []
        omega
    · cases token : readToken s.cursor.skipBlanks b with
      | error e =>
        rw [token] at h
        cases h
      | ok result =>
        rw [token] at h
        cases h
        have lt := length_readToken_lt here token
        simp only [emit]
        omega

theorem length_step_lt {s next : Layout} (h : step s = .ok (some next)) :
    next.cursor.rest.length < s.cursor.rest.length := by
  unfold step at h
  split at h
  · split at h
    · cases h
    · rename_i line_eq
      cases h
      exact (length_beginLine line_eq).2 rfl
    · rename_i line_eq
      exact Nat.lt_of_lt_of_le (length_readItem_lt h) (length_beginLine line_eq).1
  · exact length_readItem_lt h

/-- Read on to the end of the text. -/
def run (s : Layout) : Except Error (List (Token TokenKind)) :=
  match step_eq : step s with
  | .error e => .error e
  | .ok none => .ok (s.finish s.cursor.skipBlanks.pos)
  | .ok (some next) =>
    have _ := length_step_lt step_eq
    run next
termination_by s.cursor.rest.length

end Layout

/-- The tokens of a script. -/
def tokens (bytes : List UInt8) : Except Error (List (Token TokenKind)) :=
  (Layout.start bytes).run

end ScoreScript.Script
