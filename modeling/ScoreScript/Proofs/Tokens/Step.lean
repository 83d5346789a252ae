import Mathlib.Data.List.TakeWhile
import ScoreScript.Proofs.Placing.Tokens
import ScoreScript.Proofs.Script.Layout
import ScoreScript.Proofs.Stateful

/-!
What one step of reading tokens does. A step passes a line without text, a comment, a line break or
a line that is continued, or it reads one token, before which a line may open or close blocks. The
cases are told by the bytes that are passed, so that what is proved of them need not look at how
they are found. Main statements: `step_eq_some_iff`, `step_eq_none_iff`.
-/

namespace ScoreScript

namespace Cursor

/-- From the first cursor to the second these bytes are passed. -/
structure Crosses (c : Cursor) (bytes : List UInt8) (d : Cursor) : Prop where
  rest : c.rest = bytes ++ d.rest
  pos : d.pos = c.pos.after bytes

namespace Crosses

variable {c d e : Cursor} {bytes more rest : List UInt8} {p : Pos}

theorem mk_append : (⟨bytes ++ rest, p⟩ : Cursor).Crosses bytes ⟨rest, p.after bytes⟩ :=
  ⟨rfl, rfl⟩

theorem trans (h : c.Crosses bytes d) (h' : d.Crosses more e) : c.Crosses (bytes ++ more) e :=
  ⟨by rw [h.rest, h'.rest, List.append_assoc], by rw [h'.pos, h.pos, Pos.after_append]⟩

theorem exists_between (h : c.Crosses (bytes ++ more) d) :
    ∃ e, c.Crosses bytes e ∧ e.Crosses more d := by
  refine ⟨⟨more ++ d.rest, c.pos.after bytes⟩, ⟨?_, rfl⟩, rfl, ?_⟩
  · rw [h.rest, List.append_assoc]
  · rw [h.pos, Pos.after_append]

theorem of_advanceBy (c : Cursor) (count : Nat) :
    c.Crosses (c.rest.take count) (c.advanceBy count) :=
  ⟨(List.take_append_drop _ _).symm, rfl⟩

theorem of_leads (leads : bytes <+: c.rest) : c.Crosses bytes (c.advanceBy bytes.length) := by
  have crosses := of_advanceBy c bytes.length
  rwa [← List.prefix_iff_eq_take.1 leads] at crosses

theorem of_skipWhile (c : Cursor) (p : UInt8 → Bool) :
    c.Crosses (c.rest.takeWhile p) (c.skipWhile p) :=
  of_leads (List.takeWhile_prefix p)

theorem of_consume? {b : UInt8} (passed : c.consume? b = some d) : c.Crosses [b] d := by
  have rest := rest_of_consume? passed
  have first := of_advanceBy c 1
  rw [Cursor.consume?, if_pos (by rw [Cursor.current, rest]; rfl)] at passed
  cases passed
  rwa [rest] at first

theorem movesTo (h : c.Crosses bytes d) : c.MovesTo d := by
  obtain ⟨rest, p⟩ := d
  obtain ⟨left, pos⟩ := h
  refine ⟨bytes.length, ?_⟩
  rw [Cursor.advanceBy, left, List.drop_left, List.take_left, ← pos]

theorem of_movesTo (h : c.MovesTo d) : ∃ bytes, c.Crosses bytes d := by
  obtain ⟨count, rfl⟩ := h
  exact ⟨_, .of_advanceBy c count⟩

theorem unique (h : c.Crosses bytes d) (h' : c.Crosses more d) : bytes = more :=
  List.append_cancel_right (h.rest.symm.trans h'.rest)

theorem upTo_eq (h : c.Crosses bytes d) : c.upTo d = bytes := by
  rw [upTo, h.pos, Pos.offset_after, Nat.add_sub_cancel_left, h.rest, List.take_left]

/-- Passing bytes is passing what stands in front. -/
theorem exists_eq (h : c.Crosses bytes d) :
    ∃ rest p, c = ⟨bytes ++ rest, p⟩ ∧ d = ⟨rest, p.after bytes⟩ := by
  obtain ⟨rest, p⟩ := c
  obtain ⟨left, pos⟩ := h
  exact ⟨d.rest, p, congrArg (Cursor.mk · p) left, congrArg (Cursor.mk d.rest) pos⟩

end Crosses

end Cursor

namespace Script.Layout

open Cursor

/-! ### Between tokens -/

/-- A line break before the bytes that follow it: a line feed, a carriage return, or both. -/
inductive IsBreak : List UInt8 → List UInt8 → Prop where
  | feed {rest : List UInt8} : IsBreak [0x0A] rest
  | both {rest : List UInt8} : IsBreak [0x0D, 0x0A] rest
  | carriage {rest : List UInt8} (alone : rest.head? ≠ some 0x0A) : IsBreak [0x0D] rest

/-- A line feed, perhaps behind a carriage return. -/
inductive IsFeed : List UInt8 → Prop where
  | feed : IsFeed [0x0A]
  | both : IsFeed [0x0D, 0x0A]

/-- A comment before the bytes that follow it. It ends where its line ends. -/
structure IsComment (bytes rest : List UInt8) : Prop where
  mark : ∃ body, bytes = 0x23 :: body ∧ ∀ b ∈ body, isLineBreak b = false
  stop : Stops (!isLineBreak ·) rest

/-- The end of a line before the bytes that follow it. The last line need not have a break. -/
def IsLineEnd (bytes rest : List UInt8) : Prop :=
  IsBreak bytes rest ∨ bytes = [] ∧ rest = []

theorem IsFeed.isBreak {bytes : List UInt8} (ends : IsFeed bytes) (rest : List UInt8) :
    IsBreak bytes rest := by
  cases ends with
  | feed => exact .feed
  | both => exact .both

section

variable {c d : Cursor} {bytes more rest : List UInt8} {p : Pos} {b : UInt8}

theorem passBreak_append (ends : IsBreak bytes rest) :
    passBreak ⟨bytes ++ rest, p⟩ = ⟨rest, p.after bytes⟩ := by
  cases ends with
  | feed => exact advance_cons _
  | both =>
    rw [passBreak, if_pos (by rfl), List.cons_append, advance_cons, skipOptional, List.cons_append,
      consume?_cons, ← Pos.after_append]
    rfl
  | carriage alone =>
    have noFeed : (⟨rest, p.after [0x0D]⟩ : Cursor).current ≠ some 0x0A := alone
    rw [passBreak, if_pos (by rfl), List.cons_append, advance_cons, List.nil_append, skipOptional,
      consume?, if_neg noFeed]
    rfl

/-- Where a line break begins, one is passed. -/
theorem exists_isBreak (here : isLineBreak b = true) (first : c.current = some b) :
    ∃ bytes, IsBreak bytes (passBreak c).rest ∧ c.Crosses bytes (passBreak c) := by
  obtain ⟨bytes, p⟩ := c
  obtain ⟨rest, rfl⟩ := List.head?_eq_some_iff.1 first
  have found (bytes more : List UInt8) (split : b :: rest = bytes ++ more)
      (ends : IsBreak bytes more) : ∃ bytes, IsBreak bytes (passBreak ⟨b :: rest, p⟩).rest ∧
        (⟨b :: rest, p⟩ : Cursor).Crosses bytes (passBreak ⟨b :: rest, p⟩) := by
    rw [split, passBreak_append ends]
    exact ⟨bytes, ends, .mk_append⟩
  have sign : b = 0x0A ∨ b = 0x0D := by simpa [isLineBreak] using here
  rcases sign with rfl | rfl
  · exact found [0x0A] _ rfl .feed
  · cases rest with
    | nil => exact found [0x0D] _ rfl (.carriage nofun)
    | cons d rest =>
      by_cases feed : d = 0x0A
      · subst feed
        exact found [0x0D, 0x0A] _ rfl .both
      · exact found [0x0D] _ rfl (.carriage fun same => feed (Option.some.inj same))

theorem isComment_passComment (first : c.current = some 0x23) :
    ∃ bytes, IsComment bytes (passComment c).rest ∧ c.Crosses bytes (passComment c) := by
  obtain ⟨bytes, p⟩ := c
  obtain ⟨rest, rfl⟩ := List.head?_eq_some_iff.1 first
  have mark : (⟨0x23 :: rest, p⟩ : Cursor).Crosses [0x23] (⟨0x23 :: rest, p⟩ : Cursor).advance :=
    .of_advanceBy _ 1
  refine ⟨_, ⟨⟨_, rfl, fun b member => ?_⟩, stops_skipWhile _ _⟩, mark.trans (.of_skipWhile _ _)⟩
  simpa using List.mem_takeWhile_imp member

theorem passComment_append (comment : IsComment bytes rest) :
    passComment ⟨bytes ++ rest, p⟩ = ⟨rest, p.after bytes⟩ := by
  obtain ⟨⟨body, rfl, inLine⟩, stop⟩ := comment
  rw [passComment, List.cons_append, advance_cons,
    skipWhile_append body (fun b member => by simp [inLine b member]) stop, ← Pos.after_append]
  rfl

/-- Where a line may end, its end is passed. -/
theorem exists_isLineEnd (stop : Stops (!isLineBreak ·) c.rest) :
    ∃ bytes, IsLineEnd bytes (passBreak c).rest ∧ c.Crosses bytes (passBreak c) := by
  cases first : c.current with
  | none =>
    obtain ⟨rest, p⟩ := c
    obtain rfl := List.head?_eq_none_iff.1 first
    exact ⟨[], .inr ⟨rfl, rfl⟩, rfl, rfl⟩
  | some b =>
    have here : isLineBreak b = true := by simpa using stop b first
    obtain ⟨bytes, ends, crosses⟩ := exists_isBreak here first
    exact ⟨bytes, .inl ends, crosses⟩

theorem passBreak_of_crosses (crosses : c.Crosses bytes d) (ends : IsLineEnd bytes d.rest) :
    passBreak c = d := by
  obtain ⟨rest, p, rfl, rfl⟩ := crosses.exists_eq
  rcases ends with ends | ⟨rfl, none⟩
  · exact passBreak_append ends
  · obtain rfl : rest = [] := none
    rfl

theorem passComment_of_crosses (crosses : c.Crosses bytes d) (comment : IsComment bytes d.rest) :
    passComment c = d := by
  obtain ⟨rest, p, rfl, rfl⟩ := crosses.exists_eq
  exact passComment_append comment

theorem IsBreak.current (ends : IsBreak bytes rest) (crosses : c.Crosses bytes d) :
    ∃ b, c.current = some b ∧ isLineBreak b = true := by
  obtain ⟨rest, p, rfl, rfl⟩ := crosses.exists_eq
  cases ends with
  | feed => exact ⟨_, rfl, rfl⟩
  | both => exact ⟨_, rfl, rfl⟩
  | carriage => exact ⟨_, rfl, rfl⟩

theorem IsComment.current (comment : IsComment bytes rest) (crosses : c.Crosses (bytes ++ more) d) :
    c.current = some 0x23 := by
  obtain ⟨rest, p, rfl, rfl⟩ := crosses.exists_eq
  obtain ⟨body, rfl, -⟩ := comment.mark
  rfl

/-- Behind a backslash a line break is passed exactly if it has a line feed. -/
theorem consume?_join :
    (c.skipOptional 0x0D).consume? 0x0A = some d ↔
      ∃ bytes, IsFeed bytes ∧ c.Crosses bytes d := by
  constructor
  · intro passed
    have feed := Crosses.of_consume? passed
    cases first : c.consume? 0x0D with
    | none =>
      rw [skipOptional, first, Option.getD_none] at feed
      exact ⟨[0x0A], .feed, feed⟩
    | some after =>
      rw [skipOptional, first, Option.getD_some] at feed
      exact ⟨[0x0D, 0x0A], .both, (Crosses.of_consume? first).trans feed⟩
  · rintro ⟨bytes, ends, crosses⟩
    obtain ⟨rest, p, rfl, rfl⟩ := crosses.exists_eq
    cases ends with
    | feed =>
      have noCarriage : (⟨0x0A :: rest, p⟩ : Cursor).consume? 0x0D = none :=
        consume?_cons_ne (by decide)
      rw [List.singleton_append, skipOptional, noCarriage, Option.getD_none]
      exact consume?_cons _
    | both =>
      rw [List.cons_append, skipOptional, consume?_cons, Option.getD_some, List.cons_append,
        consume?_cons, ← Pos.after_append]
      rfl

end

/-! ### The blocks of a line -/

section

variable {s t : Layout}

/-- The blocks that a line does not reach are closed one by one, from the inside. -/
theorem closeBlocks_eq (width : Nat) (span : Span) (s : Layout) (levels : List Nat) :
    closeBlocks width span s levels =
      { s with
        levels := levels.dropWhile (decide <| width < ·)
        tokens := List.replicate (levels.takeWhile (decide <| width < ·)).length ⟨.dedent, span⟩ ++
          s.tokens } := by
  induction levels generalizing s with
  | nil => rfl
  | cons level outer ih =>
    by_cases deeper : width < level
    · rw [closeBlocks, if_pos deeper, ih, List.dropWhile_cons_of_pos (by simpa using deeper),
        List.takeWhile_cons_of_pos (by simpa using deeper), List.length_cons, List.replicate_succ']
      simp [emit]
    · rw [closeBlocks, if_neg deeper, List.dropWhile_cons_of_neg (by simpa using deeper),
        List.takeWhile_cons_of_neg (by simpa using deeper)]
      rfl

/-- What becomes of the blocks at the start of a line: one more is open, or the innermost are
closed. -/
inductive Indents (width : Nat) (span : Span) (s : Layout) : Layout → Prop where
  | deeper (less : s.levels.headD 0 < width) :
    Indents width span s { s.emit .indent span with levels := width :: s.levels }
  | back {closed levels : List Nat} (split : s.levels = closed ++ levels)
    (inner : ∀ level ∈ closed, width < level) (same : levels.headD 0 = width) :
    Indents width span s
      { s with
        levels := levels
        tokens := List.replicate closed.length ⟨.dedent, span⟩ ++ s.tokens }

theorem indentTo_eq_ok_iff {width : Nat} {span : Span} :
    indentTo width span s = .ok t ↔ Indents width span s t := by
  constructor
  · intro done
    unfold indentTo at done
    dsimp only at done
    split at done
    · rename_i less
      cases done
      exact .deeper less
    · rw [closeBlocks_eq] at done
      split at done <;> cases done
      rename_i same
      exact .back List.takeWhile_append_dropWhile.symm
        (fun level member => by simpa using List.mem_takeWhile_imp member) same
  · intro done
    cases done with
    | deeper less => exact if_pos less
    | @back closed levels split inner same =>
      have outer : ¬s.levels.headD 0 < width := by
        rw [split]
        cases closed with
        | nil => exact Nat.not_lt.2 (Nat.le_of_eq same.symm)
        | cons level closed => exact Nat.not_lt.2 (Nat.le_of_lt (inner level List.mem_cons_self))
      have all : ∀ level ∈ closed, (decide <| width < level) = true := by simpa using inner
      have stop : levels.takeWhile (decide <| width < ·) = [] := by
        cases levels with
        | nil => rfl
        | cons level levels => exact List.takeWhile_cons_of_neg (by simpa using Nat.le_of_eq same)
      have kept := List.takeWhile_append_dropWhile (p := (decide <| width < ·)) (l := levels)
      rw [stop, List.nil_append] at kept
      unfold indentTo
      dsimp only
      rw [if_neg outer, closeBlocks_eq, split, List.dropWhile_append_of_pos all,
        List.takeWhile_append_of_pos all, stop, kept, List.append_nil]
      exact if_pos same

/-- The column at which the text of a line begins. -/
def indentation (s : Layout) : Nat :=
  (s.cursor.rest.takeWhile isBlank).foldl widen 0

end

/-! ### Steps -/

/-- A line begins, and its indentation counts. -/
def BeginsLine (s : Layout) : Prop :=
  s.lineStart = true ∧ s.brackets = 0

instance (s : Layout) : Decidable s.BeginsLine :=
  inferInstanceAs (Decidable (_ ∧ _))

/-- The state behind a token. -/
def read (s : Layout) (start : Pos) (kind : TokenKind) (after : Cursor) : Layout :=
  { s with cursor := after, brackets := countBrackets s.brackets kind }.emit kind
    ⟨start, after.pos⟩

/-- The ways to go on by one step. -/
inductive Step (s : Layout) : Layout → Prop where
  /-- A line with nothing but blanks. -/
  | blankLine {bytes : List UInt8} {d : Cursor} (begins : s.BeginsLine)
    (crosses : s.cursor.skipBlanks.Crosses bytes d) (ends : IsBreak bytes d.rest) :
    Step s { s with cursor := d }
  /-- A line with nothing but a comment. -/
  | commentLine {bytes ending : List UInt8} {d : Cursor} (begins : s.BeginsLine)
    (crosses : s.cursor.skipBlanks.Crosses (bytes ++ ending) d)
    (comment : IsComment bytes (ending ++ d.rest)) (ends : IsLineEnd ending d.rest) :
    Step s { s with cursor := d }
  /-- A comment behind other things on its line. -/
  | comment {bytes : List UInt8} {d : Cursor} (inside : ¬s.BeginsLine)
    (crosses : s.cursor.skipBlanks.Crosses bytes d) (comment : IsComment bytes d.rest) :
    Step s { s with cursor := d }
  /-- The break between a line and the one that continues it. -/
  | join {bytes : List UInt8} {d : Cursor}
    (crosses : s.cursor.skipBlanks.Crosses (0x5C :: bytes) d) (ends : IsFeed bytes) :
    Step s { s with cursor := d }
  /-- A break inside brackets. -/
  | lineBreak {bytes : List UInt8} {d : Cursor} (inside : s.brackets ≠ 0)
    (crosses : s.cursor.skipBlanks.Crosses bytes d) (ends : IsBreak bytes d.rest) :
    Step s { s with cursor := d }
  /-- The end of a line with tokens. -/
  | lineEnd {bytes : List UInt8} {d : Cursor} (inside : ¬s.BeginsLine) (outside : s.brackets = 0)
    (crosses : s.cursor.skipBlanks.Crosses bytes d) (ends : IsBreak bytes d.rest) :
    Step s
      (if s.needsNewline then
        { s with cursor := d, lineStart := true }.emit .newline ⟨s.cursor.skipBlanks.pos, d.pos⟩
      else { s with cursor := d, lineStart := true })
  /-- A token behind other things on its line. -/
  | token {b : UInt8} {kind : TokenKind} {d : Cursor} (inside : ¬s.BeginsLine)
    (here : s.cursor.skipBlanks.current = some b) (start : isTokenStart b = true)
    (found : readToken s.cursor.skipBlanks b = .ok (kind, d)) :
    Step s (s.read s.cursor.skipBlanks.pos kind d)
  /-- The first token of a line. -/
  | line {b : UInt8} {kind : TokenKind} {d : Cursor} {t : Layout} (begins : s.BeginsLine)
    (here : s.cursor.skipBlanks.current = some b) (start : isTokenStart b = true)
    (indented : Indents s.indentation ⟨s.cursor.pos, s.cursor.skipBlanks.pos⟩
      { s with cursor := s.cursor.skipBlanks, lineStart := false } t)
    (found : readToken s.cursor.skipBlanks b = .ok (kind, d)) :
    Step s (t.read s.cursor.skipBlanks.pos kind d)

section

variable {s t : Layout}

/-- The bytes that an item of a line may begin with. -/
theorem byte_cases (b : UInt8) :
    isBlank b = true ∨ b = 0x23 ∨ b = 0x5C ∨ isLineBreak b = true ∨ isTokenStart b = true := by
  simp only [isTokenStart, isLineBreak]
  cases isBlank b <;> simp
  tauto

theorem look_of_current {c : Cursor} {b : UInt8} (here : c.current = some b) :
    c.look = some (Char.ofUInt8 b) := by
  rw [Cursor.look, here, Option.map_some]

theorem readItem_end (last : s.cursor.skipBlanks.current = none) : readItem s = .ok none := by
  unfold readItem
  simp only [last]

theorem readItem_comment (here : s.cursor.skipBlanks.current = some 0x23) :
    readItem s = .ok (some { s with cursor := passComment s.cursor.skipBlanks }) := by
  unfold readItem
  simp only [here]
  rfl

theorem readItem_join (here : s.cursor.skipBlanks.current = some 0x5C) :
    readItem s =
      match (s.cursor.skipBlanks.advance.skipOptional 0x0D).consume? 0x0A with
      | some after => .ok (some { s with cursor := after })
      | none => .error (.point (.lexical (.character '\\')) s.cursor.skipBlanks.pos) := by
  unfold readItem
  simp only [here]
  rfl

theorem readItem_break {b : UInt8} (here : s.cursor.skipBlanks.current = some b)
    (ends : isLineBreak b = true) :
    readItem s =
      if s.brackets = 0 then
        .ok (some (if s.needsNewline then
          { s with cursor := passBreak s.cursor.skipBlanks, lineStart := true }.emit .newline
            ⟨s.cursor.skipBlanks.pos, (passBreak s.cursor.skipBlanks).pos⟩
          else { s with cursor := passBreak s.cursor.skipBlanks, lineStart := true }))
      else .ok (some { s with cursor := passBreak s.cursor.skipBlanks }) := by
  have sign : b = 0x0A ∨ b = 0x0D := by simpa [isLineBreak] using ends
  unfold readItem
  simp only [here]
  rcases sign with rfl | rfl
  · rfl
  · rfl

theorem readItem_token {b : UInt8} (here : s.cursor.skipBlanks.current = some b)
    (start : isTokenStart b = true) :
    readItem s = (readToken s.cursor.skipBlanks b).map fun found =>
      some (s.read s.cursor.skipBlanks.pos found.1 found.2) := by
  obtain ⟨-, noComment, noJoin, noLine, noReturn⟩ := isTokenStart_cases start
  unfold readItem
  simp only [here]
  rfl

/-! ### Where a line begins -/

theorem beginLine_end (last : s.cursor.skipBlanks.current = none) :
    beginLine s = .ok ({ s with cursor := s.cursor.skipBlanks, lineStart := false }, true) := by
  unfold beginLine
  simp only [Cursor.look, last, Option.map_none]

theorem beginLine_comment (here : s.cursor.skipBlanks.current = some 0x23) :
    beginLine s =
      .ok ({ s with cursor := passBreak (passComment s.cursor.skipBlanks) }, false) := by
  unfold beginLine
  simp only [look_of_current here]
  rfl

theorem beginLine_join (here : s.cursor.skipBlanks.current = some 0x5C) :
    beginLine s = .ok ({ s with cursor := s.cursor.skipBlanks }, true) := by
  unfold beginLine
  simp only [look_of_current here]
  rfl

theorem beginLine_break {b : UInt8} (here : s.cursor.skipBlanks.current = some b)
    (ends : isLineBreak b = true) :
    beginLine s = .ok ({ s with cursor := passBreak s.cursor.skipBlanks }, false) := by
  have sign : b = 0x0A ∨ b = 0x0D := by simpa [isLineBreak] using ends
  unfold beginLine
  simp only [look_of_current here]
  rcases sign with rfl | rfl
  · rfl
  · rfl

theorem beginLine_text {b : UInt8} (here : s.cursor.skipBlanks.current = some b)
    (start : isTokenStart b = true) :
    beginLine s =
      (indentTo s.indentation ⟨s.cursor.pos, s.cursor.skipBlanks.pos⟩
        { s with cursor := s.cursor.skipBlanks, lineStart := false }).map (·, true) := by
  obtain ⟨-, noComment, noJoin, noLine, noReturn⟩ := isTokenStart_cases start
  have width : s.indentation = (s.cursor.upTo s.cursor.skipBlanks).foldl widen 0 := by
    rw [indentation, ← upTo_skipWhile]
    rfl
  rw [width]
  unfold beginLine
  simp only [look_of_current here]

theorem step_within (inside : ¬s.BeginsLine) : step s = readItem s := by
  rw [step, if_neg]
  simpa [BeginsLine] using inside

theorem step_begins (begins : s.BeginsLine) :
    step s =
      beginLine s >>= fun begun => if begun.2 then readItem begun.1 else .ok (some begun.1) := by
  rw [step, if_pos (by simpa [BeginsLine] using begins)]
  cases beginLine s with
  | error e => rfl
  | ok begun =>
    obtain ⟨next, hasText⟩ := begun
    cases hasText <;> rfl

theorem skipBlanks_skipBlanks (c : Cursor) : c.skipBlanks.skipBlanks = c.skipBlanks :=
  skipWhile_stop (stops_skipWhile c _)

theorem step_end (last : s.cursor.skipBlanks.current = none) : step s = .ok none := by
  by_cases begins : s.BeginsLine
  · rw [step_begins begins, beginLine_end last]
    refine readItem_end (s := { s with cursor := s.cursor.skipBlanks, lineStart := false }) ?_
    rw [skipBlanks_skipBlanks]
    exact last
  · rw [step_within begins, readItem_end last]

theorem step_comment (here : s.cursor.skipBlanks.current = some 0x23) :
    step s = .ok (some { s with
      cursor := if s.BeginsLine
        then passBreak (passComment s.cursor.skipBlanks) else passComment s.cursor.skipBlanks }) := by
  by_cases begins : s.BeginsLine
  · rw [step_begins begins, beginLine_comment here, if_pos begins]
    rfl
  · rw [step_within begins, readItem_comment here, if_neg begins]

theorem step_join (here : s.cursor.skipBlanks.current = some 0x5C) :
    step s =
      match (s.cursor.skipBlanks.advance.skipOptional 0x0D).consume? 0x0A with
      | some after => .ok (some { s with cursor := after })
      | none => .error (.point (.lexical (.character '\\')) s.cursor.skipBlanks.pos) := by
  by_cases begins : s.BeginsLine
  · rw [step_begins begins, beginLine_join here]
    have item := readItem_join (s := { s with cursor := s.cursor.skipBlanks })
      (by rwa [skipBlanks_skipBlanks])
    rw [skipBlanks_skipBlanks] at item
    exact item
  · rw [step_within begins, readItem_join here]

theorem step_break {b : UInt8} (here : s.cursor.skipBlanks.current = some b)
    (ends : isLineBreak b = true) :
    step s = .ok (some (
      if s.BeginsLine ∨ s.brackets ≠ 0 then
        { s with cursor := passBreak s.cursor.skipBlanks }
      else if s.needsNewline then
        { s with cursor := passBreak s.cursor.skipBlanks, lineStart := true }.emit .newline
          ⟨s.cursor.skipBlanks.pos, (passBreak s.cursor.skipBlanks).pos⟩
      else { s with cursor := passBreak s.cursor.skipBlanks, lineStart := true })) := by
  by_cases begins : s.BeginsLine
  · rw [step_begins begins, beginLine_break here ends, if_pos (.inl begins)]
    rfl
  · rw [step_within begins, readItem_break here ends]
    by_cases outside : s.brackets = 0
    · rw [if_pos outside, if_neg (not_or.2 ⟨begins, not_not.2 outside⟩)]
    · rw [if_neg outside, if_pos (.inr outside)]

theorem step_token {b : UInt8} (inside : ¬s.BeginsLine)
    (here : s.cursor.skipBlanks.current = some b) (start : isTokenStart b = true) :
    step s = (readToken s.cursor.skipBlanks b).map fun found =>
      some (s.read s.cursor.skipBlanks.pos found.1 found.2) := by
  rw [step_within inside, readItem_token here start]

theorem step_line {b : UInt8} (begins : s.BeginsLine)
    (here : s.cursor.skipBlanks.current = some b) (start : isTokenStart b = true) :
    step s =
      indentTo s.indentation ⟨s.cursor.pos, s.cursor.skipBlanks.pos⟩
        { s with cursor := s.cursor.skipBlanks, lineStart := false } >>= fun t =>
      (readToken s.cursor.skipBlanks b).map fun found =>
        some (t.read s.cursor.skipBlanks.pos found.1 found.2) := by
  rw [step_begins begins, beginLine_text here start]
  cases indented : indentTo s.indentation ⟨s.cursor.pos, s.cursor.skipBlanks.pos⟩
      { s with cursor := s.cursor.skipBlanks, lineStart := false } with
  | error e => rfl
  | ok t =>
    have stays : t.cursor.skipBlanks = s.cursor.skipBlanks := by
      rw [cursor_indentTo indented]
      exact skipBlanks_skipBlanks _
    have item := readItem_token (s := t) (by rw [stays]; exact here) start
    rw [stays] at item
    exact item

/-- There is nothing to pass exactly at the end of the text. -/
theorem step_eq_none_iff : step s = .ok none ↔ s.cursor.skipBlanks.rest = [] := by
  constructor
  · intro done
    cases current : s.cursor.skipBlanks.current with
    | none => exact List.head?_eq_none_iff.1 current
    | some b =>
      exfalso
      rcases byte_cases b with blank | rfl | rfl | ends | start
      · exact absurd blank (by simp [stops_skipWhile s.cursor isBlank b current])
      · rw [step_comment current] at done
        cases done
      · rw [step_join current] at done
        split at done <;> cases done
      · rw [step_break current ends] at done
        cases done
      · by_cases begins : s.BeginsLine
        · rw [step_line begins current start] at done
          obtain ⟨t, -, read⟩ := ok_of_bind done
          obtain ⟨found, -, none⟩ := ok_of_map read
          cases none
        · rw [step_token begins current start] at done
          obtain ⟨found, -, none⟩ := ok_of_map done
          cases none
  · intro last
    exact step_end (by rw [Cursor.current, last]; rfl)

/-- A state comes after another exactly if it is the state behind one of the steps. -/
theorem step_eq_some_iff : step s = .ok (some t) ↔ Step s t := by
  constructor
  · intro done
    cases current : s.cursor.skipBlanks.current with
    | none =>
      rw [step_end current] at done
      cases done
    | some b =>
      rcases byte_cases b with blank | rfl | rfl | ends | start
      · exact absurd blank (by simp [stops_skipWhile s.cursor isBlank b current])
      · obtain ⟨bytes, comment, crosses⟩ := isComment_passComment current
        rw [step_comment current] at done
        by_cases begins : s.BeginsLine
        · rw [if_pos begins] at done
          cases done
          obtain ⟨ending, ends, more⟩ := exists_isLineEnd comment.stop
          rw [more.rest] at comment
          exact .commentLine begins (crosses.trans more) comment ends
        · rw [if_neg begins] at done
          cases done
          exact .comment begins crosses comment
      · rw [step_join current] at done
        split at done
        · rename_i after passed
          cases done
          obtain ⟨bytes, ends, more⟩ := consume?_join.1 passed
          have slash := Crosses.of_consume? (c := s.cursor.skipBlanks) (if_pos current)
          exact .join (slash.trans more) ends
        · cases done
      · obtain ⟨bytes, isBreak, crosses⟩ := exists_isBreak ends current
        rw [step_break current ends] at done
        split at done
        · rename_i other
          cases done
          by_cases inside : s.brackets = 0
          · exact .blankLine (other.resolve_right (not_not.2 inside)) crosses isBreak
          · exact .lineBreak inside crosses isBreak
        · rename_i other
          cases done
          rw [not_or, not_not] at other
          exact .lineEnd other.1 other.2 crosses isBreak
      · by_cases begins : s.BeginsLine
        · rw [step_line begins current start] at done
          obtain ⟨u, indented, done⟩ := ok_of_bind done
          obtain ⟨found, read, same⟩ := ok_of_map done
          cases same
          exact .line begins current start (indentTo_eq_ok_iff.1 indented) read
        · rw [step_token begins current start] at done
          obtain ⟨found, read, same⟩ := ok_of_map done
          cases same
          exact .token begins current start read
  · intro done
    cases done with
    | blankLine begins crosses ends =>
      obtain ⟨b, here, isBreak⟩ := ends.current crosses
      rw [step_break here isBreak, if_pos (.inl begins), passBreak_of_crosses crosses (.inl ends)]
    | commentLine begins crosses comment ends =>
      obtain ⟨e, first, last⟩ := crosses.exists_between
      rw [← last.rest] at comment
      rw [step_comment (comment.current crosses), if_pos begins, passComment_of_crosses first comment,
        passBreak_of_crosses last ends]
    | comment inside crosses comment =>
      have here : s.cursor.skipBlanks.current = some 0x23 :=
        comment.current (by rwa [List.append_nil])
      rw [step_comment here, if_neg inside, passComment_of_crosses crosses comment]
    | @join bytes d crosses ends =>
      have both : s.cursor.skipBlanks.Crosses ([0x5C] ++ bytes) d := crosses
      obtain ⟨e, first, last⟩ := both.exists_between
      obtain ⟨rest, p, here, rfl⟩ := first.exists_eq
      have passed := consume?_join.2 ⟨_, ends, last⟩
      rw [step_join (by rw [here]; rfl), here, List.singleton_append, advance_cons, passed]
    | lineBreak inside crosses ends =>
      obtain ⟨b, here, isBreak⟩ := ends.current crosses
      rw [step_break here isBreak, if_pos (.inr inside), passBreak_of_crosses crosses (.inl ends)]
    | lineEnd inside outside crosses ends =>
      obtain ⟨b, here, isBreak⟩ := ends.current crosses
      rw [step_break here isBreak, if_neg (not_or.2 ⟨inside, not_not.2 outside⟩),
        passBreak_of_crosses crosses (.inl ends)]
    | token inside here start found =>
      rw [step_token inside here start, found]
      rfl
    | line begins here start indented found =>
      rw [step_line begins here start, indentTo_eq_ok_iff.2 indented]
      change (readToken _ _).map _ = _
      rw [found]
      rfl

/-- What is added at the end of the text: the last line ends and all blocks are closed. -/
def ending (s : Layout) (stop : Pos) : List (Token TokenKind) :=
  (if s.needsNewline then [⟨.newline, .point stop⟩] else []) ++
    (List.replicate s.levels.length ⟨.dedent, .point stop⟩ ++ [⟨.eof, .point stop⟩])

theorem finish_eq (s : Layout) (stop : Pos) :
    s.finish stop = s.tokens.reverse ++ s.ending stop := by
  have blocks (levels : List Nat) (s : Layout) :
      (levels.foldl (fun s _ => s.emit .dedent (.point stop)) s).tokens =
        List.replicate levels.length ⟨.dedent, .point stop⟩ ++ s.tokens := by
    induction levels generalizing s with
    | nil => rfl
    | cons level outer ih =>
      rw [List.foldl_cons, ih, List.length_cons, List.replicate_succ', List.append_assoc]
      rfl
  unfold finish ending
  dsimp only
  split
  · rw [emit, blocks]
    simp [emit]
  · rw [emit, blocks]
    simp

theorem of_mem_ending {stop : Pos} {t : Token TokenKind} (added : t ∈ s.ending stop) :
    t.kind.isSolid = false ∧ t.span = .point stop := by
  rw [ending, List.mem_append, List.mem_append, List.mem_singleton] at added
  rcases added with line | block | rfl
  · split at line
    · rw [List.mem_singleton.1 line]
      exact ⟨rfl, rfl⟩
    · cases line
  · rw [List.eq_of_mem_replicate block]
    exact ⟨rfl, rfl⟩
  · exact ⟨rfl, rfl⟩

end

end Script.Layout

end ScoreScript
