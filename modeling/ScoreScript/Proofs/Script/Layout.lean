import ScoreScript.Proofs.Script.Literal
import ScoreScript.Script.Layout

/-!
Lines that are written and read as tokens. A state of reading is described by the kinds of the
tokens read so far and by the bytes that are left, and each lemma passes one piece of a line: a
token, the end of the line, the blanks at the start of the next one. What is lexed from either end
of such a passage is the same (`Reaches`).
-/

namespace ScoreScript.Script.Layout

open Cursor

/-! ### Reading on -/

theorem run_error {s : Layout} {e : Error} (h : step s = .error e) : s.run = .error e := by
  rw [run.eq_def]
  split <;> simp_all

theorem run_none {s : Layout} (h : step s = .ok none) :
    s.run = .ok (s.finish s.cursor.skipBlanks.pos) := by
  rw [run.eq_def]
  split <;> rename_i found <;> rw [h] at found <;> cases found

theorem run_some {s t : Layout} (h : step s = .ok (some t)) : s.run = t.run := by
  rw [run.eq_def s]
  split <;> rename_i found <;> rw [h] at found <;> cases found
  rfl

/-- Reading on from `s` is reading on from a state with the property. -/
def Reaches (s : Layout) (P : Layout → Prop) : Prop :=
  ∃ t, s.run = t.run ∧ P t

namespace Reaches

variable {s : Layout} {P Q : Layout → Prop}

theorem trans (first : Reaches s P) (next : ∀ t, P t → Reaches t Q) : Reaches s Q := by
  obtain ⟨t, same, holds⟩ := first
  obtain ⟨u, same', holds'⟩ := next t holds
  exact ⟨u, same.trans same', holds'⟩

theorem of_step {t : Layout} (one : step s = .ok (some t)) (h : P t) : Reaches s P :=
  ⟨t, run_some one, h⟩

/-- Two states with the same next step lead to the same tokens, except at the end. -/
theorem of_same {t : Layout} (same : step s = step t) (more : step t ≠ .ok none) (h : P t) :
    Reaches s P := by
  refine ⟨t, ?_, h⟩
  cases here : step t with
  | error e => rw [run_error here, run_error (same.trans here)]
  | ok next =>
    cases next with
    | none => exact absurd here more
    | some next => rw [run_some here, run_some (same.trans here)]

end Reaches

/-! ### Inside a line -/

/-- The kinds of the tokens read so far. -/
def kinds (s : Layout) : List TokenKind :=
  (s.tokens.map (·.kind)).reverse

theorem kinds_emit (s : Layout) (kind : TokenKind) (span : Span) :
    (s.emit kind span).kinds = s.kinds ++ [kind] := by
  simp [kinds, emit]

/-- A state inside a line. -/
structure InLine (levels : List Nat) (brackets : Nat) (kinds : List TokenKind)
    (rest : List UInt8) (s : Layout) : Prop where
  lineStart : s.lineStart = false
  levels : s.levels = levels
  brackets : s.brackets = brackets
  kinds : s.kinds = kinds
  rest : s.cursor.rest = rest

/-- The bytes that neither are passed between tokens nor end a line. -/
def isTokenStart (b : UInt8) : Bool :=
  !(isBlank b || b == 0x23 || b == 0x5C || b == 0x0A || b == 0x0D)

/-- The bytes are one token if `rest` follows. -/
def IsToken (bytes rest : List UInt8) (kind : TokenKind) : Prop :=
  ∃ b more, bytes = b :: more ∧ isTokenStart b = true ∧
    ∀ p, readToken ⟨bytes ++ rest, p⟩ b = .ok (kind, ⟨rest, p.after bytes⟩)

variable {levels : List Nat} {brackets : Nat} {kinds : List TokenKind} {rest : List UInt8}
  {s : Layout}

theorem step_inLine (h : s.lineStart = false) : step s = readItem s := by
  rw [step, h]
  rfl

/-- A byte that begins a token is none of the signs that a line treats otherwise. -/
theorem isTokenStart_cases {b : UInt8} (start : isTokenStart b = true) :
    isBlank b = false ∧ Char.ofUInt8 b ≠ '#' ∧ Char.ofUInt8 b ≠ '\\' ∧ Char.ofUInt8 b ≠ '\n' ∧
      Char.ofUInt8 b ≠ '\r' := by
  have apart {sign : Char} (other : isTokenStart sign.toUInt8 = false) : Char.ofUInt8 b ≠ sign := by
    intro same
    have byte : b = sign.toUInt8 := by
      rw [← same, toUInt8_ofUInt8]
    rw [byte, other] at start
    cases start
  refine ⟨?_, apart (by decide), apart (by decide), apart (by decide), apart (by decide)⟩
  simp only [isTokenStart, Bool.not_eq_true', Bool.or_eq_false_iff] at start
  exact start.1.1.1.1

/-- Nothing is passed before a token that stands at the cursor. -/
theorem skipBlanks_token {b : UInt8} (start : isTokenStart b = true)
    (here : s.cursor.rest = b :: rest) : s.cursor.skipBlanks = ⟨b :: rest, s.cursor.pos⟩ := by
  have c : s.cursor = ⟨b :: rest, s.cursor.pos⟩ := by rw [← here]
  rw [c]
  exact skipWhile_stop (stops_cons (isTokenStart_cases start).1)

theorem readItem_ne_none {b : UInt8} (start : isTokenStart b = true)
    (here : s.cursor.rest = b :: rest) : readItem s ≠ .ok none := by
  obtain ⟨-, noComment, noJoin, noLine, noReturn⟩ := isTokenStart_cases start
  unfold readItem
  simp only [skipBlanks_token start here, Cursor.current, List.head?_cons]
  cases readToken ⟨b :: rest, s.cursor.pos⟩ b <;> simp [Except.map]

/-- A token is passed. -/
theorem InLine.token {bytes : List UInt8} {kind : TokenKind}
    (h : InLine levels brackets kinds (bytes ++ rest) s) (token : IsToken bytes rest kind) :
    Reaches s (InLine levels (countBrackets brackets kind) (kinds ++ [kind]) rest) := by
  obtain ⟨lineStart, same, opened, read, here⟩ := h
  obtain ⟨b, more, rfl, start, found⟩ := token
  obtain ⟨-, noComment, noJoin, noLine, noReturn⟩ := isTokenStart_cases start
  have item : readItem s = .ok (some
      ({ s with
          cursor := ⟨rest, s.cursor.pos.after (b :: more)⟩
          brackets := countBrackets s.brackets kind }.emit kind
        ⟨s.cursor.pos, s.cursor.pos.after (b :: more)⟩)) := by
    have token := found s.cursor.pos
    rw [List.cons_append] at token here
    unfold readItem
    simp only [skipBlanks_token start here, Cursor.current, List.head?_cons, token]
    rfl
  refine .of_step ((step_inLine lineStart).trans item) ⟨lineStart, same, ?_, ?_, rfl⟩
  · rw [emit, opened]
  · rw [kinds_emit, ← read]
    rfl

/-- A space before a token is passed. -/
theorem InLine.space {b : UInt8} (h : InLine levels brackets kinds (0x20 :: b :: rest) s)
    (start : isTokenStart b = true) : Reaches s (InLine levels brackets kinds (b :: rest)) := by
  obtain ⟨lineStart, same, opened, read, here⟩ := h
  have passed : s.cursor.skipBlanks = ⟨b :: rest, s.cursor.pos.after [0x20]⟩ := by
    have c : s.cursor = ⟨[0x20] ++ b :: rest, s.cursor.pos⟩ := by
      rw [List.singleton_append, ← here]
    rw [c]
    exact skipWhile_append _ (List.forall_mem_singleton.2 rfl)
      (stops_cons (isTokenStart_cases start).1)
  let t : Layout := { s with cursor := ⟨b :: rest, s.cursor.pos.after [0x20]⟩ }
  have items : readItem s = readItem t := by
    unfold readItem
    rw [passed, skipBlanks_token (s := t) start rfl]
    rfl
  refine .of_same (t := t) ?_ ?_ ⟨lineStart, same, opened, read, rfl⟩
  · rw [step_inLine lineStart, step_inLine (s := t) lineStart, items]
  · rw [step_inLine (s := t) lineStart]
    exact readItem_ne_none (s := t) start rfl

/-- The bytes are passed as tokens of these kinds, if `rest` follows. -/
def Passes (bytes rest : List UInt8) (kinds : List TokenKind) : Prop :=
  ∀ (levels : List Nat) (brackets : Nat) (before : List TokenKind) (s : Layout),
    InLine levels brackets before (bytes ++ rest) s →
      Reaches s (InLine levels (kinds.foldl countBrackets brackets) (before ++ kinds) rest)

namespace Passes

theorem of_token {bytes : List UInt8} {kind : TokenKind} (h : IsToken bytes rest kind) :
    Passes bytes rest [kind] :=
  fun _ _ _ _ line => line.token h

theorem nil : Passes [] rest [] := by
  intro levels brackets before s line
  exact ⟨s, rfl, by rwa [List.append_nil]⟩

theorem append {first second : List UInt8} {kinds kinds' : List TokenKind}
    (h : Passes first (second ++ rest) kinds) (h' : Passes second rest kinds') :
    Passes (first ++ second) rest (kinds ++ kinds') := by
  intro levels brackets before s line
  rw [List.append_assoc] at line
  rw [List.foldl_append, ← List.append_assoc]
  exact (h _ _ _ _ line).trans fun t later => h' _ _ _ _ later

theorem space {b : UInt8} {more : List UInt8} {kinds : List TokenKind}
    (h : Passes (b :: more) rest kinds) (start : isTokenStart b = true) :
    Passes (0x20 :: b :: more) rest kinds :=
  fun _ _ _ _ line => (line.space start).trans fun _ later => h _ _ _ _ later

end Passes

/-- A state before a line, outside of brackets. -/
structure AtLine (levels : List Nat) (kinds : List TokenKind) (rest : List UInt8)
    (s : Layout) : Prop where
  lineStart : s.lineStart = true
  levels : s.levels = levels
  brackets : s.brackets = 0
  kinds : s.kinds = kinds
  rest : s.cursor.rest = rest
  ended : s.needsNewline = false

/-- Behind a token a line is to be ended. -/
theorem InLine.needsNewline {kind : TokenKind} (h : InLine levels brackets (kinds ++ [kind]) rest s)
    (text : kind.isLayout = false) : s.needsNewline = true := by
  have reversed := congrArg List.reverse h.kinds
  rw [Layout.kinds, List.reverse_reverse, List.reverse_append] at reversed
  unfold Layout.needsNewline
  cases tokens : s.tokens with
  | nil => simp [tokens] at reversed
  | cons token more =>
    rw [tokens] at reversed
    have first := (List.cons.inj reversed).1
    simp [first, text]

/-- A line ends after a token. -/
theorem InLine.newline {kind : TokenKind}
    (h : InLine levels 0 (kinds ++ [kind]) (0x0A :: rest) s) (text : kind.isLayout = false) :
    Reaches s (AtLine levels (kinds ++ [kind, .newline]) rest) := by
  have last := h.needsNewline text
  obtain ⟨lineStart, same, open_, read, here⟩ := h
  have c : s.cursor = ⟨0x0A :: rest, s.cursor.pos⟩ := by rw [← here]
  have noBlank : s.cursor.skipBlanks = ⟨0x0A :: rest, s.cursor.pos⟩ := by
    rw [c]
    exact skipWhile_stop (stops_cons (by decide))
  have passed : passBreak ⟨0x0A :: rest, s.cursor.pos⟩ = ⟨rest, s.cursor.pos.after [0x0A]⟩ :=
    advance_cons _
  have item : readItem s = .ok (some
      ({ s with cursor := ⟨rest, s.cursor.pos.after [0x0A]⟩, lineStart := true }.emit .newline
        ⟨s.cursor.pos, s.cursor.pos.after [0x0A]⟩)) := by
    unfold readItem
    simp only [noBlank, Cursor.current, List.head?_cons, passed, open_, if_true, last]
    rfl
  refine .of_step ((step_inLine lineStart).trans item) ⟨rfl, same, open_, ?_, rfl, rfl⟩
  have split : kinds ++ [kind, .newline] = (kinds ++ [kind]) ++ [.newline] := by simp
  rw [kinds_emit, split, ← read]
  rfl

/-! ### Between lines -/

/-- The indentation of `depth` blocks of four columns each, innermost first. -/
def levelsAt : Nat → List Nat
  | 0 => []
  | depth + 1 => 4 * (depth + 1) :: levelsAt depth

theorem headD_levelsAt (depth : Nat) : (levelsAt depth).headD 0 = 4 * depth := by
  cases depth <;> rfl

theorem length_levelsAt (depth : Nat) : (levelsAt depth).length = depth := by
  induction depth with
  | zero => rfl
  | succ depth ih => rw [levelsAt, List.length_cons, ih]

theorem foldl_widen (width count : Nat) :
    (List.replicate count (0x20 : UInt8)).foldl widen width = width + count := by
  induction count generalizing width with
  | zero => rfl
  | succ count ih =>
    rw [List.replicate_succ, List.foldl_cons, ih, widen, if_pos rfl]
    omega

/-- The blocks inside the one at depth `depth` are closed. -/
theorem closeBlocks_levelsAt (depth : Nat) (span : Span) :
    ∀ (inner : Nat) (s : Layout),
      ∃ t, closeBlocks (4 * depth) span s (levelsAt (depth + inner)) = t ∧
        t.levels = levelsAt depth ∧ t.kinds = s.kinds ++ List.replicate inner .dedent ∧
        t.lineStart = s.lineStart ∧ t.brackets = s.brackets ∧ t.cursor = s.cursor
  | 0, s => by
    cases depth with
    | zero => exact ⟨_, rfl, rfl, (List.append_nil _).symm, rfl, rfl, rfl⟩
    | succ depth =>
      rw [Nat.add_zero, levelsAt, closeBlocks, if_neg (by omega)]
      exact ⟨_, rfl, rfl, (List.append_nil _).symm, rfl, rfl, rfl⟩
  | inner + 1, s => by
    obtain ⟨t, closed, levels, kinds, others⟩ :=
      closeBlocks_levelsAt depth span inner (s.emit .dedent span)
    refine ⟨t, ?_, levels, ?_, others⟩
    · rw [← closed, ← Nat.add_assoc, levelsAt, closeBlocks, if_pos (by omega)]
    · rw [kinds, kinds_emit, List.replicate_succ, List.append_assoc]
      rfl

/-- A line that begins with a token is entered. -/
theorem beginLine_token {count : Nat} {b : UInt8} (start : isTokenStart b = true)
    {p : Pos} (here : s.cursor = ⟨List.replicate count 0x20 ++ b :: rest, p⟩) :
    let c : Cursor := ⟨b :: rest, p.after (List.replicate count 0x20)⟩
    beginLine s =
      (indentTo count ⟨p, c.pos⟩ { s with cursor := c, lineStart := false }).map (·, true) := by
  obtain ⟨noBlank, noComment, noJoin, noLine, noReturn⟩ := isTokenStart_cases start
  have spaces : ∀ b ∈ List.replicate count (0x20 : UInt8), isBlank b = true := by
    intro b member
    rw [List.eq_of_mem_replicate member]
    rfl
  have passed : s.cursor.skipBlanks = ⟨b :: rest, p.after (List.replicate count 0x20)⟩ := by
    rw [here]
    exact skipWhile_append _ spaces (stops_cons noBlank)
  have width : (s.cursor.upTo ⟨b :: rest, p.after (List.replicate count 0x20)⟩).foldl widen 0 =
      count := by
    rw [here, upTo_append, foldl_widen, Nat.zero_add]
  have place : s.cursor.pos = p := by rw [here]
  unfold beginLine
  simp only [passed, Cursor.look, Cursor.current, List.head?_cons, Option.map_some, width, place]

/-- A line that has been entered goes on with its first token. -/
theorem Reaches.of_beginLine {t : Layout} {P : Layout → Prop} {b : UInt8}
    (lineStart : s.lineStart = true) (noBracket : s.brackets = 0)
    (entered : beginLine s = .ok (t, true)) (inLine : t.lineStart = false)
    (start : isTokenStart b = true) (here : t.cursor.rest = b :: rest) (h : P t) :
    Reaches s P := by
  have same : step s = readItem t := by
    rw [step, lineStart, noBracket]
    simp only [entered]
    rfl
  refine .of_same (same.trans (step_inLine inLine).symm) ?_ h
  rw [step_inLine inLine]
  exact readItem_ne_none start here

/-- The first line of a block is entered. -/
theorem AtLine.deeper {depth : Nat} {b : UInt8} (start : isTokenStart b = true)
    (h : AtLine (levelsAt depth) kinds
      (List.replicate (4 * (depth + 1)) 0x20 ++ b :: rest) s) :
    Reaches s (InLine (levelsAt (depth + 1)) 0 (kinds ++ [.indent]) (b :: rest)) := by
  obtain ⟨lineStart, same, noBracket, read, here, -⟩ := h
  have entered := beginLine_token (s := s) (p := s.cursor.pos) start (by rw [← here])
  have wider : s.levels.headD 0 < 4 * (depth + 1) := by
    rw [same, headD_levelsAt]
    omega
  simp only [indentTo, if_pos wider, Except.map] at entered
  refine .of_beginLine lineStart noBracket entered rfl start rfl ⟨rfl, ?_, noBracket, ?_, rfl⟩
  · rw [same]
    rfl
  · rw [← read]
    exact kinds_emit _ _ _

/-- A line at depth `depth` is entered, after lines that may lie deeper. -/
theorem AtLine.outward {depth inner : Nat} {b : UInt8} (start : isTokenStart b = true)
    (h : AtLine (levelsAt (depth + inner)) kinds
      (List.replicate (4 * depth) 0x20 ++ b :: rest) s) :
    Reaches s (InLine (levelsAt depth) 0 (kinds ++ List.replicate inner .dedent) (b :: rest)) := by
  obtain ⟨lineStart, same, noBracket, read, here, -⟩ := h
  have entered := beginLine_token (s := s) (p := s.cursor.pos) start (by rw [← here])
  have narrower : ¬s.levels.headD 0 < 4 * depth := by
    rw [same, headD_levelsAt]
    omega
  obtain ⟨t, closed, levels_t, kinds_t, lineStart_t, brackets_t, cursor_t⟩ :=
    closeBlocks_levelsAt depth
      ⟨s.cursor.pos, s.cursor.pos.after (List.replicate (4 * depth) 0x20)⟩ inner
      { s with
        cursor := ⟨b :: rest, s.cursor.pos.after (List.replicate (4 * depth) 0x20)⟩
        lineStart := false }
  rw [← same] at closed
  have matching : t.levels.headD 0 = 4 * depth := by rw [levels_t, headD_levelsAt]
  simp only [indentTo, if_neg narrower, closed, if_pos matching, Except.map] at entered
  refine .of_beginLine lineStart noBracket entered lineStart_t start (by rw [cursor_t])
    ⟨lineStart_t, levels_t, brackets_t.trans noBracket, ?_, by rw [cursor_t]⟩
  rw [kinds_t, ← read]
  rfl

theorem foldl_dedent (span : Span) (levels : List Nat) (s : Layout) :
    (levels.foldl (fun s _ => s.emit .dedent span) s).kinds =
      s.kinds ++ List.replicate levels.length .dedent := by
  induction levels generalizing s with
  | nil => simp
  | cons level outer ih =>
    rw [List.foldl_cons, ih, kinds_emit, List.length_cons, List.replicate_succ, List.append_assoc]
    rfl

/-- At the end of the text all blocks are closed. -/
theorem AtLine.run_end (h : AtLine levels kinds [] s) :
    ∃ tokens, s.run = .ok tokens ∧
      tokens.map (·.kind) = kinds ++ List.replicate levels.length .dedent ++ [.eof] := by
  obtain ⟨lineStart, same, noBracket, read, here, ended⟩ := h
  have c : s.cursor = ⟨[], s.cursor.pos⟩ := by rw [← here]
  have atEnd : s.cursor.skipBlanks = ⟨[], s.cursor.pos⟩ := by
    rw [c]
    exact skipWhile_stop nofun
  have noLine : beginLine s =
      .ok ({ s with cursor := ⟨[], s.cursor.pos⟩, lineStart := false }, true) := by
    unfold beginLine
    simp only [atEnd, Cursor.look, Cursor.current, List.head?_nil, Option.map_none]
  have stop : step s = .ok none := by
    rw [step, lineStart, noBracket]
    simp only [noLine]
    rfl
  refine ⟨_, run_none stop, ?_⟩
  simp only [finish, ended, Bool.false_eq_true, if_false]
  rw [List.map_reverse]
  refine (kinds_emit _ .eof _).trans ?_
  rw [foldl_dedent, read, same]

/-- A last line that is not ended ends with the text, and so do all blocks. -/
theorem InLine.run_end {kind : TokenKind} (h : InLine levels brackets (kinds ++ [kind]) [] s)
    (text : kind.isLayout = false) :
    ∃ tokens, s.run = .ok tokens ∧ tokens.map (·.kind) =
      kinds ++ [kind, .newline] ++ List.replicate levels.length .dedent ++ [.eof] := by
  have last := h.needsNewline text
  obtain ⟨lineStart, same, -, read, here⟩ := h
  have c : s.cursor = ⟨[], s.cursor.pos⟩ := by rw [← here]
  have atEnd : s.cursor.skipBlanks = ⟨[], s.cursor.pos⟩ := by
    rw [c]
    exact skipWhile_stop nofun
  have stop : step s = .ok none := by
    rw [step_inLine lineStart, readItem, atEnd]
    rfl
  refine ⟨_, run_none stop, ?_⟩
  simp only [finish, last, if_true]
  rw [List.map_reverse]
  refine (kinds_emit _ .eof _).trans ?_
  have levels_eq (span : Span) : (s.emit .newline span).levels = levels := same
  rw [foldl_dedent, kinds_emit, read, levels_eq, List.append_assoc kinds [kind] [.newline]]
  rfl

/-- A state between lines, as it is for a line at depth `depth`: blocks that lie deeper are still
to be closed, and `kinds` counts the tokens that close them. -/
def Between (depth : Nat) (kinds : List TokenKind) (rest : List UInt8) (s : Layout) : Prop :=
  ∃ inner before, AtLine (levelsAt (depth + inner)) before rest s ∧
    before ++ List.replicate inner .dedent = kinds

namespace Between

variable {depth : Nat}

theorem of_atLine (h : AtLine (levelsAt depth) kinds rest s) : Between depth kinds rest s :=
  ⟨0, kinds, h, List.append_nil kinds⟩

/-- The next line of the block is entered. -/
theorem enter {b : UInt8} (start : isTokenStart b = true)
    (h : Between depth kinds (List.replicate (4 * depth) 0x20 ++ b :: rest) s) :
    Reaches s (InLine (levelsAt depth) 0 kinds (b :: rest)) := by
  obtain ⟨inner, before, line, rfl⟩ := h
  exact line.outward start

/-- The block has no more lines. -/
theorem leave (h : Between (depth + 1) kinds rest s) :
    Between depth (kinds ++ [.dedent]) rest s := by
  obtain ⟨inner, before, line, rfl⟩ := h
  refine ⟨inner + 1, before, ?_, ?_⟩
  · rwa [Nat.add_right_comm, Nat.add_assoc] at line
  · rw [List.replicate_succ', List.append_assoc]

/-- At the end of the text the tokens are those that were counted, and one for the end. -/
theorem run_end (h : Between 0 kinds [] s) :
    ∃ tokens, s.run = .ok tokens ∧ tokens.map (·.kind) = kinds ++ [.eof] := by
  obtain ⟨inner, before, line, rfl⟩ := h
  obtain ⟨tokens, lexed, same⟩ := line.run_end
  rw [length_levelsAt, Nat.zero_add] at same
  exact ⟨tokens, lexed, same⟩

end Between

end ScoreScript.Script.Layout
