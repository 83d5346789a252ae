import ScoreScript.Proofs.Tokens.Locality
import ScoreScript.Proofs.Tokens.Lossless

/-!
Blank lines, comments and line endings do not matter. A text that is relaid has the same lines, each
ended by a line feed alone or behind a carriage return, and perhaps more lines without text between
them. Reading the one text is followed step by step by reading the other (`Step.followed`), so that
both have the same tokens, up to their places (`tokens_relaid`).
-/

namespace ScoreScript.Script

open Cursor Layout

/-! ### Texts that are relaid -/

/-- A line with nothing but blanks and perhaps a comment. -/
inductive IsIgnoredLine : List UInt8 → Prop where
  | blank {blanks ending : List UInt8} (all : ∀ b ∈ blanks, isBlank b = true)
    (ends : IsFeed ending) : IsIgnoredLine (blanks ++ ending)
  | comment {blanks body ending : List UInt8} (all : ∀ b ∈ blanks, isBlank b = true)
    (unbroken : Unbroken body) (ends : IsFeed ending) :
    IsIgnoredLine (blanks ++ (0x23 :: body ++ ending))

inductive AreIgnoredLines : List UInt8 → Prop where
  | nil : AreIgnoredLines []
  | cons {line lines : List UInt8} (first : IsIgnoredLine line) (more : AreIgnoredLines lines) :
    AreIgnoredLines (line ++ lines)

/-- The second text has the lines of the first, and ignored lines before what `free` allows. -/
inductive Relaid (free : List UInt8 → Prop) : List UInt8 → List UInt8 → Prop where
  | nil : Relaid free [] []
  | byte {b : UInt8} {rest rest' : List UInt8} (inLine : isLineBreak b = false)
    (later : Relaid free rest rest') : Relaid free (b :: rest) (b :: rest')
  | line {ending extra rest rest' : List UInt8} (ends : IsFeed ending)
    (ignored : AreIgnoredLines extra) (allowed : extra ≠ [] → free rest)
    (later : Relaid free rest rest') : Relaid free (0x0A :: rest) (ending ++ (extra ++ rest'))

/-- Every line feed is written behind a carriage return. -/
def withCarriages (text : List UInt8) : List UInt8 :=
  text.flatMap fun b => if b = 0x0A then [0x0D, 0x0A] else [b]

def TokenKind.isString : TokenKind → Bool
  | string _ _ => true
  | _ => false

/-- No string literal goes on on another line. -/
def StringsInLine (text : List UInt8) (tokens : List (Token TokenKind)) : Prop :=
  ∀ t ∈ tokens, t.kind.isString = true →
    0x0A ∉ (text.take t.span.stop.offset).drop t.span.start.offset

instance (text : List UInt8) (tokens : List (Token TokenKind)) :
    Decidable (StringsInLine text tokens) :=
  inferInstanceAs (Decidable (∀ t ∈ tokens, t.kind.isString = true →
    0x0A ∉ (text.take t.span.stop.offset).drop t.span.start.offset))

/-- These bytes of the text are all before the first token, or all up to the end of a token. -/
def EndsToken (tokens : List (Token TokenKind)) (before : List UInt8) : Prop :=
  before = [] ∨ ∃ t ∈ tokens, t.kind.isSolid = true ∧ t.span.stop.offset = before.length

/-- The line behind these bytes of the text continues the one before it: that one ends with a
backslash, which stands between tokens and not in a comment. -/
def Continued (text : List UInt8) (tokens : List (Token TokenKind)) (before : List UInt8) : Prop :=
  ∃ solid gap ending rest, before = solid ++ (gap ++ 0x5C :: ending) ∧ IsFeed ending ∧
    text = before ++ rest ∧ IsGap gap (0x5C :: (ending ++ rest)) ∧ EndsToken tokens solid

section

variable {free : List UInt8 → Prop} {bytes rest rest' text : List UInt8} {c c' d d' : Cursor}

theorem EndsToken.mono {tokens tokens' : List (Token TokenKind)} {before : List UInt8}
    (ends : EndsToken tokens before) (more : ∀ t ∈ tokens, t ∈ tokens') :
    EndsToken tokens' before := by
  rcases ends with none | ⟨t, inside, last⟩
  · exact .inl none
  · exact .inr ⟨t, more t inside, last⟩

theorem Continued.backslash_mem {tokens : List (Token TokenKind)} {before : List UInt8}
    (continued : Continued text tokens before) : 0x5C ∈ before := by
  obtain ⟨solid, gap, ending, rest, rfl, -⟩ := continued
  simp

theorem unbroken_of_not_mem (noFeed : 0x0A ∉ bytes) (noCarriage : 0x0D ∉ bytes) :
    Unbroken bytes := by
  intro b inside
  rw [isLineBreak, Bool.or_eq_false_iff, beq_eq_false_iff_ne, beq_eq_false_iff_ne]
  exact ⟨fun same => noFeed (same ▸ inside), fun same => noCarriage (same ▸ inside)⟩

theorem Layout.IsFeed.stops {q : UInt8 → Bool} (ends : IsFeed bytes) (feed : q 0x0A = false)
    (carriage : q 0x0D = false) : Stops q (bytes ++ rest) := by
  cases ends with
  | feed => exact stops_cons feed
  | both => exact stops_cons carriage

namespace Relaid

theorem eq_nil (relaid : Relaid free [] text) : text = [] := by
  cases relaid
  rfl

/-- Bytes of a line are the same in both texts. -/
theorem exists_append (unbroken : Unbroken bytes) (relaid : Relaid free (bytes ++ rest) text) :
    ∃ rest', text = bytes ++ rest' ∧ Relaid free rest rest' := by
  induction bytes generalizing text with
  | nil => exact ⟨text, rfl, relaid⟩
  | cons b bytes ih =>
    rw [Unbroken, List.forall_mem_cons] at unbroken
    cases relaid with
    | byte inLine later =>
      obtain ⟨rest', rfl, relaid⟩ := ih unbroken.2 later
      exact ⟨rest', rfl, relaid⟩
    | line => cases unbroken.1

theorem stops {q : UInt8 → Bool} (relaid : Relaid free rest rest') (feed : q 0x0A = false)
    (carriage : q 0x0D = false) (stop : Stops q rest) : Stops q rest' := by
  cases relaid with
  | nil => exact stop
  | byte inLine later => exact stop
  | line ends ignored allowed later => exact ends.stops feed carriage

/-- Where a line ends in the first text one ends in the second, and ignored lines may follow. -/
theorem exists_line (ends : IsBreak bytes rest) (relaid : Relaid free (bytes ++ rest) text) :
    ∃ ending extra rest', text = ending ++ (extra ++ rest') ∧ IsFeed ending ∧
      AreIgnoredLines extra ∧ (extra ≠ [] → free rest) ∧ Relaid free rest rest' := by
  cases ends with
  | feed =>
    cases relaid with
    | byte inLine later => cases inLine
    | line ends ignored allowed later => exact ⟨_, _, _, rfl, ends, ignored, allowed, later⟩
  | both =>
    cases relaid with
    | byte inLine later => cases inLine
  | carriage alone =>
    cases relaid with
    | byte inLine later => cases inLine

theorem takeWhile_eq (relaid : Relaid free rest rest') :
    rest.takeWhile (!isLineBreak ·) = rest'.takeWhile (!isLineBreak ·) := by
  induction relaid with
  | nil => rfl
  | byte inLine later ih => simp only [List.takeWhile_cons, inLine, Bool.not_false, if_true, ih]
  | line ends ignored allowed later ih =>
    cases ends with
    | feed => rfl
    | both => rfl

theorem sameLine (relaid : Relaid free c.rest c'.rest) : SameLine c c' :=
  relaid.takeWhile_eq

theorem follow (relaid : Relaid free c.rest c'.rest) (follow : Follow c c' d d') :
    Relaid free d.rest d'.rest := by
  obtain ⟨bytes, unbroken, crosses, crosses'⟩ := follow
  rw [crosses.rest] at relaid
  obtain ⟨rest', split, relaid⟩ := relaid.exists_append unbroken
  rw [crosses'.rest] at split
  rwa [List.append_cancel_left split]

/-- A byte that is no carriage return may stay. -/
theorem cons {b : UInt8} (noCarriage : b ≠ 0x0D) (later : Relaid free rest rest') :
    Relaid free (b :: rest) (b :: rest') := by
  by_cases feed : b = 0x0A
  · subst feed
    exact .line .feed .nil (absurd rfl) later
  · exact .byte (by simp [isLineBreak, feed, noCarriage]) later

theorem refl (noCarriage : 0x0D ∉ text) : Relaid free text text := by
  induction text with
  | nil => exact .nil
  | cons b text ih =>
    rw [List.mem_cons, not_or] at noCarriage
    exact .cons (Ne.symm noCarriage.1) (ih noCarriage.2)

theorem withCarriages (noCarriage : 0x0D ∉ text) : Relaid free text (withCarriages text) := by
  induction text with
  | nil => exact .nil
  | cons b text ih =>
    rw [List.mem_cons, not_or] at noCarriage
    rw [Script.withCarriages, List.flatMap_cons]
    by_cases feed : b = 0x0A
    · rw [if_pos feed, feed]
      exact .line .both .nil (absurd rfl) (ih noCarriage.2)
    · rw [if_neg feed]
      exact .cons (Ne.symm noCarriage.1) (ih noCarriage.2)

/-- Lines may be put in before a line, wherever one begins. -/
theorem insert {before extra : List UInt8} (noCarriage : 0x0D ∉ before ++ rest)
    (lineEnd : before.getLast? = some 0x0A) (ignored : AreIgnoredLines extra) :
    Relaid (· = rest) (before ++ rest) (before ++ (extra ++ rest)) := by
  induction before with
  | nil => cases lineEnd
  | cons b before ih =>
    rw [List.cons_append, List.mem_cons, not_or] at noCarriage
    cases before with
    | nil =>
      cases lineEnd
      exact .line .feed ignored (fun _ => rfl) (.refl noCarriage.2)
    | cons d before => exact .cons (Ne.symm noCarriage.1) (ih noCarriage.2 lineEnd)

end Relaid

end

namespace Layout

variable {free : List UInt8 → Prop} {text rest : List UInt8} {s s' t : Layout}

/-! ### Lines that are ignored -/

theorem Reaches.one {P : Layout → Prop} (first : Step s t) (there : P t) : Reaches s P :=
  .of_step (step_eq_some_iff.2 first) there

theorem Reaches.step {P : Layout → Prop} (first : Step s t) (later : Reaches t P) :
    Reaches s P := by
  apply Reaches.trans (Reaches.one first rfl)
  intro u same
  rwa [← same]

theorem skipBlanks_of_blanks {c : Cursor} {blanks : List UInt8} (here : c.rest = blanks ++ rest)
    (all : ∀ b ∈ blanks, isBlank b = true) (stop : Stops isBlank rest) :
    c.skipBlanks.rest = rest := by
  obtain ⟨bytes, p⟩ := c
  obtain rfl := here
  rw [skipBlanks, skipWhile_append blanks all stop]

theorem crosses_of_rest {c : Cursor} {bytes : List UInt8} (here : c.rest = bytes ++ rest) :
    c.Crosses bytes ⟨rest, c.pos.after bytes⟩ :=
  ⟨here, rfl⟩

theorem passes_ignoredLine {line : List UInt8} (ignored : IsIgnoredLine line)
    (here : t.cursor.rest = line ++ rest) (quiet : t.BeginsLine ∨ t.brackets ≠ 0) :
    Reaches t fun u => ∃ d, u = { t with cursor := d } ∧ d.rest = rest := by
  cases ignored with
  | blank all ends =>
    rw [List.append_assoc] at here
    have text := skipBlanks_of_blanks here all (ends.stops rfl rfl)
    have crosses := crosses_of_rest text
    rcases quiet with begins | inside
    · exact .one (.blankLine begins crosses (ends.isBreak _)) ⟨_, rfl, rfl⟩
    · exact .one (.lineBreak inside crosses (ends.isBreak _)) ⟨_, rfl, rfl⟩
  | @comment blanks body ending all unbroken ends =>
    rw [List.append_assoc, List.append_assoc] at here
    have text := skipBlanks_of_blanks here all (stops_cons rfl)
    have comment : IsComment (0x23 :: body) (ending ++ rest) :=
      ⟨⟨body, rfl, unbroken⟩, ends.stops rfl rfl⟩
    rcases quiet with begins | inside
    · rw [← List.append_assoc] at text
      have lineEnd : IsLineEnd ending rest := .inl (ends.isBreak rest)
      exact .one (.commentLine begins (crosses_of_rest text) comment lineEnd) ⟨_, rfl, rfl⟩
    · have within : ¬t.BeginsLine := fun begins => inside begins.2
      have behind (p : Pos) : (⟨ending ++ rest, p⟩ : Cursor).skipBlanks.rest = ending ++ rest := by
        rw [skipBlanks, skipWhile_stop (ends.stops rfl rfl)]
      apply Reaches.step (.comment within (crosses_of_rest text) comment)
      exact .one (.lineBreak inside (crosses_of_rest (behind _)) (ends.isBreak _)) ⟨_, rfl, rfl⟩

theorem passes_ignoredLines {lines : List UInt8} (ignored : AreIgnoredLines lines)
    (here : t.cursor.rest = lines ++ rest) (quiet : t.BeginsLine ∨ t.brackets ≠ 0) :
    Reaches t fun u => ∃ d, u = { t with cursor := d } ∧ d.rest = rest := by
  induction ignored generalizing t with
  | nil => exact ⟨t, rfl, t.cursor, rfl, here⟩
  | cons first more ih =>
    rw [List.append_assoc] at here
    refine (passes_ignoredLine first here quiet).trans fun u passed => ?_
    obtain ⟨d, rfl, behind⟩ := passed
    exact ih behind quiet

/-! ### Two readings -/

/-- The two states differ in where they have come to and in the places of the tokens only. -/
structure Alike (s t : Layout) : Prop where
  levels : t.levels = s.levels
  brackets : t.brackets = s.brackets
  lineStart : t.lineStart = s.lineStart
  kinds : t.kinds = s.kinds

/-- What is left to be read is relaid for the second state. -/
structure Follows (free : List UInt8 → Prop) (s t : Layout) : Prop where
  rest : Relaid free s.cursor.rest t.cursor.rest
  alike : Alike s t

section

variable {c d : Cursor} {kind : TokenKind} {span span' : Span}

namespace Alike

theorem moved (alike : Alike s t) : Alike { s with cursor := c } { t with cursor := d } :=
  ⟨alike.levels, alike.brackets, alike.lineStart, alike.kinds⟩

theorem lineEnded (alike : Alike s t) :
    Alike { s with cursor := c, lineStart := true } { t with cursor := d, lineStart := true } :=
  ⟨alike.levels, alike.brackets, rfl, alike.kinds⟩

theorem emit (alike : Alike s t) : Alike (s.emit kind span) (t.emit kind span') :=
  ⟨alike.levels, alike.brackets, alike.lineStart, by rw [kinds_emit, kinds_emit, alike.kinds]⟩

theorem read {p q : Pos} (alike : Alike s t) : Alike (s.read p kind c) (t.read q kind d) := by
  have counted : Alike { s with cursor := c, brackets := countBrackets s.brackets kind }
      { t with cursor := d, brackets := countBrackets t.brackets kind } :=
    ⟨alike.levels, congrArg (countBrackets · kind) alike.brackets, alike.lineStart, alike.kinds⟩
  exact counted.emit

theorem beginsLine_iff (alike : Alike s t) : t.BeginsLine ↔ s.BeginsLine := by
  rw [BeginsLine, BeginsLine, alike.lineStart, alike.brackets]

theorem needsNewline_eq (alike : Alike s t) : t.needsNewline = s.needsNewline := by
  have last (s : Layout) : s.needsNewline = (s.tokens.map (·.kind)).head?.any (!·.isLayout) := by
    unfold needsNewline
    cases s.tokens <;> rfl
  rw [last, last, List.reverse_injective alike.kinds]

/-- The same blocks are opened and closed. -/
theorem indents {width : Nat} {u : Layout} (alike : Alike s t) (indented : Indents width span s u) :
    ∃ v, Indents width span' t v ∧ Alike u v := by
  cases indented with
  | deeper less =>
    rw [← alike.levels] at less
    refine ⟨_, .deeper less, ?_, alike.brackets, alike.lineStart, alike.emit.kinds⟩
    rw [alike.levels]
  | back split inner same =>
    rw [← alike.levels] at split
    refine ⟨_, .back split inner same, rfl, alike.brackets, alike.lineStart, ?_⟩
    simpa [Layout.kinds] using alike.kinds

end Alike

namespace Follows

/-- Ignored lines are passed behind the end of a line. -/
theorem behind_lines {extra : List UInt8} (ignored : AreIgnoredLines extra)
    (here : t.cursor.rest = extra ++ rest) (quiet : t.BeginsLine ∨ t.brackets ≠ 0)
    (relaid : Relaid free s.cursor.rest rest) (alike : Alike s t) : Reaches t (Follows free s) := by
  refine (passes_ignoredLines ignored here quiet).trans fun u passed => ?_
  obtain ⟨d, rfl, behind⟩ := passed
  exact ⟨_, rfl, behind ▸ relaid, alike.moved⟩

theorem skipBlanks (follows : Follows free s t) :
    Follow s.cursor t.cursor s.cursor.skipBlanks t.cursor.skipBlanks :=
  follows.rest.sameLine.skipWhile rfl rfl

theorem indentation_eq (follows : Follows free s t) : t.indentation = s.indentation := by
  rw [indentation, indentation, follows.rest.sameLine.takeWhile rfl rfl]

end Follows

end

theorem inLine_of_isTokenStart {b : UInt8} (start : isTokenStart b = true) :
    isLineBreak b = false :=
  inLine_of rfl rfl start

theorem IsComment.unbroken {bytes : List UInt8} (comment : IsComment bytes rest) :
    Unbroken bytes := by
  obtain ⟨body, rfl, inLine⟩ := comment.mark
  exact List.forall_mem_cons.2 ⟨rfl, inLine⟩

/-- The second reading finds the same token, unless it is a string that goes on on another line. -/
theorem Follows.readToken {b : UInt8} {kind : TokenKind} {c : Cursor} (follows : Follows free s t)
    (here : s.cursor.skipBlanks.current = some b) (start : isTokenStart b = true)
    (found : Layout.readToken s.cursor.skipBlanks b = .ok (kind, c))
    (strings : ∀ bytes value form, s.cursor.skipBlanks.Crosses bytes c →
      kind = .string value form → Unbroken bytes) :
    t.cursor.skipBlanks.current = some b ∧
      ∃ d, Layout.readToken t.cursor.skipBlanks b = .ok (kind, d) ∧ Relaid free c.rest d.rest := by
  have blanks := follows.skipBlanks
  have same := blanks.sameLine follows.rest.sameLine
  obtain ⟨bytes, crosses⟩ := Crosses.of_movesTo (readToken_moves found)
  obtain ⟨d, found', follow⟩ := readToken_follows same here found crosses
    fun value form => strings bytes value form crosses
  exact ⟨same.current (inLine_of_isTokenStart start) here, d, found',
    (follows.rest.follow blanks).follow follow⟩

/-- A step of the first reading is followed by the second, unless it joins lines before which others
may be ignored, or reads a string that goes on on another line. -/
theorem Step.followed (one : Step s s') (follows : Follows free s t)
    (joins : ∀ bytes d, s.cursor.skipBlanks.Crosses (0x5C :: bytes) d → IsFeed bytes → ¬free d.rest)
    (strings : ∀ bytes d value form, s.cursor.skipBlanks.Crosses bytes d →
      (⟨.string value form, ⟨s.cursor.skipBlanks.pos, d.pos⟩⟩ : Token TokenKind) ∈ s'.tokens →
      Unbroken bytes) : Reaches t (Follows free s') := by
  have relaid := follows.rest.follow follows.skipBlanks
  have alike := follows.alike
  cases one with
  | blankLine begins crosses ends =>
    rw [crosses.rest] at relaid
    obtain ⟨ending, extra, rest', split, ends', ignored, allowed, later⟩ := relaid.exists_line ends
    have begins' := alike.beginsLine_iff.2 begins
    apply Reaches.step (.blankLine begins' (crosses_of_rest split) (ends'.isBreak _))
    exact Follows.behind_lines ignored rfl (.inl begins') later alike.moved
  | @commentLine bytes ending d begins crosses comment ends =>
    rw [crosses.rest, List.append_assoc] at relaid
    obtain ⟨line, split, behind⟩ := relaid.exists_append comment.unbroken
    have begins' := alike.beginsLine_iff.2 begins
    have comment' : IsComment _ line := ⟨comment.mark, behind.stops rfl rfl comment.stop⟩
    rcases ends with ends | ⟨rfl, last⟩
    · obtain ⟨ending, extra, rest', rfl, ends', ignored, allowed, later⟩ := behind.exists_line ends
      rw [← List.append_assoc] at split
      apply Reaches.step
        (.commentLine begins' (crosses_of_rest split) comment' (.inl (ends'.isBreak _)))
      exact Follows.behind_lines ignored rfl (.inl begins') later alike.moved
    · rw [last] at behind
      obtain rfl := behind.eq_nil
      have split : t.cursor.skipBlanks.rest = (bytes ++ []) ++ [] := by
        rw [split, List.append_nil, List.append_nil]
      apply Reaches.one
        (.commentLine begins' (crosses_of_rest split) comment' (.inr ⟨rfl, rfl⟩))
      exact ⟨last.symm ▸ behind, alike.moved⟩
  | comment inside crosses comment =>
    rw [crosses.rest] at relaid
    obtain ⟨rest', split, later⟩ := relaid.exists_append comment.unbroken
    have inside' := mt alike.beginsLine_iff.1 inside
    have comment' : IsComment _ rest' := ⟨comment.mark, later.stops rfl rfl comment.stop⟩
    exact .one (.comment inside' (crosses_of_rest split) comment') ⟨later, alike.moved⟩
  | @join bytes d crosses ends =>
    -- A line put in here would be part of the joined line, and end it.
    rw [crosses.rest] at relaid
    have slash : Unbroken [0x5C] := List.forall_mem_singleton.2 rfl
    obtain ⟨line, split, behind⟩ := relaid.exists_append slash
    obtain ⟨ending, extra, rest', rfl, ends', ignored, allowed, later⟩ :=
      behind.exists_line (ends.isBreak _)
    obtain rfl : extra = [] := by
      by_contra some_line
      exact joins bytes d crosses ends (allowed some_line)
    have crosses' : t.cursor.skipBlanks.Crosses (0x5C :: ending) ⟨rest', _⟩ := ⟨split, rfl⟩
    exact .one (.join crosses' ends') ⟨later, alike.moved⟩
  | lineBreak inside crosses ends =>
    rw [crosses.rest] at relaid
    obtain ⟨ending, extra, rest', split, ends', ignored, allowed, later⟩ := relaid.exists_line ends
    have inside' : t.brackets ≠ 0 := by rwa [alike.brackets]
    apply Reaches.step (.lineBreak inside' (crosses_of_rest split) (ends'.isBreak _))
    exact Follows.behind_lines ignored rfl (.inr inside') later alike.moved
  | lineEnd inside outside crosses ends =>
    rw [crosses.rest] at relaid
    obtain ⟨ending, extra, rest', split, ends', ignored, allowed, later⟩ := relaid.exists_line ends
    have inside' := mt alike.beginsLine_iff.1 inside
    have outside' := alike.brackets.trans outside
    apply Reaches.step (.lineEnd inside' outside' (crosses_of_rest split) (ends'.isBreak _))
    rw [alike.needsNewline_eq]
    split
    · exact Follows.behind_lines ignored rfl (.inl ⟨rfl, outside'⟩) later alike.lineEnded.emit
    · exact Follows.behind_lines ignored rfl (.inl ⟨rfl, outside'⟩) later alike.lineEnded
  | token inside here start found =>
    obtain ⟨here', d', found', later⟩ := follows.readToken here start found
      fun bytes value form crosses kind =>
        strings bytes _ value form crosses (by rw [kind]; exact List.mem_cons_self)
    have inside' := mt alike.beginsLine_iff.1 inside
    exact .one (.token inside' here' start found') ⟨later, alike.read⟩
  | line begins here start indented found =>
    obtain ⟨here', d', found', later⟩ := follows.readToken here start found
      fun bytes value form crosses kind =>
        strings bytes _ value form crosses (by rw [kind]; exact List.mem_cons_self)
    have begins' := alike.beginsLine_iff.2 begins
    have entered : Alike { s with cursor := s.cursor.skipBlanks, lineStart := false }
        { t with cursor := t.cursor.skipBlanks, lineStart := false } :=
      ⟨alike.levels, alike.brackets, rfl, alike.kinds⟩
    obtain ⟨v, indented', laid⟩ := entered.indents indented
    rw [← follows.indentation_eq] at indented'
    exact .one (.line begins' here' start indented' found') ⟨later, laid.read⟩

theorem Follows.finish (follows : Follows free s t) (p q : Pos) :
    (t.finish q).map (·.kind) = (s.finish p).map (·.kind) := by
  have alike := follows.alike
  have ended : (t.ending q).map (·.kind) = (s.ending p).map (·.kind) := by
    rw [ending, ending, alike.needsNewline_eq, alike.levels]
    split <;> simp
  have read : t.tokens.reverse.map (·.kind) = s.tokens.reverse.map (·.kind) := by
    rw [List.map_reverse, List.map_reverse]
    exact alike.kinds
  rw [finish_eq, finish_eq, List.map_append, List.map_append, ended, read]

/-- Reading has come to a cursor of the text, and what was passed last is a token and a gap. -/
structure Pending (text : List UInt8) (s : Layout) : Prop where
  cursor : s.cursor.IsIn text
  behind : ∃ before gap, text = before ++ (gap ++ s.cursor.rest) ∧ IsGap gap s.cursor.rest ∧
    EndsToken s.tokens before

/-- What is left behind a place of the text is what was not passed. -/
theorem length_before {c : Cursor} (cursor : c.IsIn text) {before : List UInt8}
    (split : text = before ++ c.rest) : before.length = c.pos.offset := by
  have counted := cursor.offset_add_length
  have whole := congrArg List.length split
  rw [List.length_append] at whole
  simp only [ofBytes, Pos.start] at counted
  omega

/-- What was passed between two places of the text stands between their offsets. -/
theorem between_eq {c d : Cursor} (cursor : c.IsIn text) {bytes : List UInt8}
    (crosses : c.Crosses bytes d) : (text.take d.pos.offset).drop c.pos.offset = bytes := by
  obtain ⟨before, passed⟩ := Crosses.of_movesTo cursor
  have split : text = before ++ c.rest := passed.rest
  rw [crosses.pos, Pos.offset_after, ← length_before cursor split, split, crosses.rest,
    ← List.append_assoc, ← List.length_append, List.take_left, List.drop_left]

theorem Pending.progress {added : List (Token TokenKind)} (pending : Pending text s)
    (progress : Progress s added t) : Pending text t := by
  obtain ⟨cursor, before, gap, split, isGap, ends⟩ := pending
  have more : ∀ x ∈ s.tokens, x ∈ t.tokens := by
    intro x inside
    rw [progress.tokens]
    exact List.mem_append_right _ inside
  cases progress with
  | @gap gap' layout t crosses isGap' within tokens =>
    refine ⟨cursor.moved crosses.movesTo, before, gap ++ gap', ?_, .append ?_ isGap',
      ends.mono more⟩
    · rw [split, crosses.rest, List.append_assoc]
    · rwa [← crosses.rest]
  | @token gap' bytes layout t c kind crosses isGap' written spelt within tokens =>
    have cursor' := (cursor.moved crosses.movesTo).moved written.movesTo
    have split' : text = (before ++ (gap ++ (gap' ++ bytes))) ++ t.cursor.rest := by
      rw [split, crosses.rest, written.rest]
      simp only [List.append_assoc]
    have read : (⟨kind, ⟨c.pos, t.cursor.pos⟩⟩ : Token TokenKind) ∈ t.tokens := by
      rw [tokens, List.reverse_append]
      exact List.mem_cons_self
    have stop := (length_before cursor' split').symm
    exact ⟨cursor', _, [], split', .nil, .inr ⟨_, read, spelt.isSolid, stop⟩⟩

/-- Where lines are joined the next line continues the one before. -/
theorem Pending.continued (pending : Pending text s) {ending : List UInt8} {d : Cursor}
    {tokens : List (Token TokenKind)} (more : ∀ t ∈ s.tokens, t ∈ tokens)
    (crosses : s.cursor.skipBlanks.Crosses (0x5C :: ending) d) (ends : IsFeed ending) :
    ∃ before, text = before ++ d.rest ∧ Continued text tokens before := by
  obtain ⟨-, before, gap, split, isGap, last⟩ := pending
  obtain ⟨blanks, passed, isBlanks⟩ := s.exists_blanks
  rw [crosses.rest] at isBlanks
  rw [passed.rest, crosses.rest] at isGap split
  have split' : text = (before ++ ((gap ++ blanks) ++ 0x5C :: ending)) ++ d.rest := by
    rw [split]
    simp only [List.append_assoc]
  exact ⟨_, split', before, gap ++ blanks, ending, d.rest, rfl, ends, split', isGap.append isBlanks,
    last.mono more⟩

theorem Follows.run {tokens : List (Token TokenKind)} (follows : Follows free s t)
    (pending : Pending text s) (noCarriage : 0x0D ∉ text) (inLine : StringsInLine text tokens)
    (allowed : ∀ before rest, text = before ++ rest → free rest → ¬Continued text tokens before)
    (done : s.run = .ok tokens) :
    ∃ tokens', t.run = .ok tokens' ∧ tokens'.map (·.kind) = tokens.map (·.kind) := by
  -- By the steps of the first run. The tokens of the whole run are known, so that what `allowed` and
  -- `inLine` say of them is about each step: its tokens are among them.
  fun_induction Layout.run s generalizing t with
  | case1 s e stop => cases done
  | case2 s stop =>
    cases done
    have last := (follows.rest.follow follows.skipBlanks)
    rw [step_eq_none_iff.1 stop] at last
    exact ⟨_, run_none (step_eq_none_iff.2 last.eq_nil), follows.finish _ _⟩
  | case3 s next more less ih =>
    have one := step_eq_some_iff.1 more
    obtain ⟨added, progress⟩ := one.progress
    obtain ⟨new, split, -⟩ := Ahead.run done
    have later : ∀ x ∈ next.tokens, x ∈ tokens := by
      intro x inside
      rw [split]
      exact List.mem_append_left _ (List.mem_reverse.2 inside)
    have earlier : ∀ x ∈ s.tokens, x ∈ tokens := by
      intro x inside
      apply later
      rw [progress.tokens]
      exact List.mem_append_right _ inside
    obtain ⟨u, same, follows'⟩ := one.followed follows
      (fun bytes d crosses ends isFree => by
        obtain ⟨before, whole, continued⟩ := pending.continued earlier crosses ends
        exact allowed before d.rest whole isFree continued)
      (fun bytes d value form crosses read => by
        have here := pending.cursor.moved (d := s.cursor.skipBlanks) .skipWhile
        have noFeed := inLine _ (later _ read) rfl
        rw [between_eq here crosses] at noFeed
        obtain ⟨before, passed⟩ := Crosses.of_movesTo here
        have split : text = before ++ (bytes ++ d.rest) := passed.rest.trans (by rw [crosses.rest])
        exact unbroken_of_not_mem noFeed fun inside => noCarriage (by simp [split, inside]))
    obtain ⟨tokens', run, kinds⟩ := ih follows' (pending.progress progress) done
    exact ⟨tokens', same.trans run, kinds⟩

end Layout

section

variable {free : List UInt8 → Prop} {text text' extra : List UInt8}
  {tokens : List (Token TokenKind)}

/-- A text that is relaid has the same tokens, also behind lines that are ignored. -/
theorem tokens_of_relaid (done : Script.tokens text = .ok tokens) (noCarriage : 0x0D ∉ text)
    (inLine : StringsInLine text tokens) (relaid : Relaid free text text')
    (ignored : AreIgnoredLines extra)
    (allowed : ∀ before rest, text = before ++ rest → free rest → ¬Continued text tokens before) :
    ∃ tokens', Script.tokens (extra ++ text') = .ok tokens' ∧
      tokens'.map (·.kind) = tokens.map (·.kind) := by
  have pending : Pending text (.start text) := ⟨.refl, [], [], rfl, .nil, .inl rfl⟩
  have alike : Alike (.start text) (.start (extra ++ text')) := ⟨rfl, rfl, rfl, rfl⟩
  obtain ⟨t, same, follows⟩ :
      Reaches (.start (extra ++ text')) (Layout.Follows free (.start text)) :=
    Layout.Follows.behind_lines ignored rfl (.inl ⟨rfl, rfl⟩) relaid alike
  obtain ⟨tokens', run, kinds⟩ := follows.run pending noCarriage inLine allowed done
  exact ⟨tokens', same.trans run, kinds⟩

/-- A text of which no string literal goes on on another line, and which has line feeds only, has
the same tokens if its line feeds are written behind carriage returns, and if a line without text is
put in where a line begins that does not continue the one before it. -/
theorem tokens_relaid (done : Script.tokens text = .ok tokens) (noCarriage : 0x0D ∉ text)
    (inLine : StringsInLine text tokens) :
    (∃ tokens', Script.tokens (withCarriages text) = .ok tokens' ∧
      tokens'.map (·.kind) = tokens.map (·.kind)) ∧
    ∀ before rest line, text = before ++ rest → (before = [] ∨ before.getLast? = some 0x0A) →
      ¬Continued text tokens before → IsIgnoredLine line →
      ∃ tokens', Script.tokens (before ++ (line ++ rest)) = .ok tokens' ∧
        tokens'.map (·.kind) = tokens.map (·.kind) := by
  constructor
  · have relaid : Relaid (fun _ => False) text (withCarriages text) := .withCarriages noCarriage
    exact tokens_of_relaid done noCarriage inLine relaid .nil fun _ _ _ none => none.elim
  · intro before rest line split start free ignored
    have lines : AreIgnoredLines line := by
      rw [← List.append_nil line]
      exact .cons ignored .nil
    rcases start with rfl | lineEnd
    · obtain rfl : text = rest := split
      have relaid : Relaid (fun _ => False) text text := .refl noCarriage
      rw [List.nil_append]
      exact tokens_of_relaid done noCarriage inLine relaid lines fun _ _ _ none => none.elim
    · rw [split] at noCarriage
      have relaid := Relaid.insert noCarriage lineEnd lines
      rw [← split] at relaid noCarriage
      apply tokens_of_relaid done noCarriage inLine relaid .nil
      intro before' rest' split' same
      rw [same, split] at split'
      rwa [← List.append_cancel_right split']

end

/-- A comment on a line of its own, inside brackets. -/
theorem tokens_relaid_comment :
    ∃ tokens tokens', Script.tokens (utf8 "a(\n'b')\n") = .ok tokens ∧
      Script.tokens (utf8 "a(\n # c\n'b')\n") = .ok tokens' ∧
      tokens'.map (·.kind) = tokens.map (·.kind) := by
  have known : ((Script.tokens (utf8 "a(\n'b')\n")).toOption.map
      fun tokens => decide (StringsInLine (utf8 "a(\n'b')\n") tokens)) = some true := by
    decide +kernel
  obtain ⟨tokens, lexed, inLine⟩ := ok_of_known known
  have ignored : IsIgnoredLine (utf8 " " ++ (0x23 :: utf8 " c" ++ utf8 "\n")) :=
    .comment (by decide +kernel) (unbroken_of_not_mem (by decide) (by decide)) .feed
  have free : ¬Continued (utf8 "a(\n'b')\n") tokens (utf8 "a(\n") :=
    fun continued => absurd continued.backslash_mem (by decide)
  obtain ⟨tokens', lexed', same⟩ := (tokens_relaid lexed (by decide) (of_decide_eq_true inLine)).2
    (utf8 "a(\n") (utf8 "'b')\n") _ rfl (.inr rfl) free ignored
  exact ⟨tokens, tokens', lexed, lexed', same⟩

end ScoreScript.Script
