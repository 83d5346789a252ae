import ScoreScript.Proofs.Tokens.Spelling

/-!
The layout of the tokens of a script. Blocks open and close in pairs, a block opens before a token
that is written and closes behind a line, and no line is empty. Inside brackets there is no layout
until the text ends. Each step of reading adds tokens that may follow those before (`LaidOut`), and
at the end of the text the blocks that are still open are closed (`tokens_wellLaid`).
-/

namespace ScoreScript.Script

def indents (tokens : List (Token TokenKind)) : Nat :=
  tokens.countP fun t => t.kind matches .indent

def dedents (tokens : List (Token TokenKind)) : Nat :=
  tokens.countP fun t => t.kind matches .dedent

/-- The number of brackets that are open behind the tokens. A bracket too many closes nothing. -/
def openBrackets (tokens : List (Token TokenKind)) : Nat :=
  tokens.foldl (fun brackets t => Layout.countBrackets brackets t.kind) 0

/-- The layout among the tokens of a text is well formed. -/
structure WellLaid (text : List UInt8) (tokens : List (Token TokenKind)) : Prop where
  nested : ∀ before, before <+: tokens → dedents before ≤ indents before
  closed : dedents tokens = indents tokens
  ends : EndsOnce tokens
  /-- A block opens at the start of a line, before a token that is written. -/
  indent : ∀ before t after, tokens = before ++ t :: after → t.kind = .indent →
    (∀ last ∈ before.getLast?, last.kind = .newline) ∧
      ∃ next ∈ after.head?, next.kind.isSolid = true
  /-- A block closes behind a line, or behind another block. -/
  dedent : ∀ before t after, tokens = before ++ t :: after → t.kind = .dedent →
    ∃ last ∈ before.getLast?, last.kind = .newline ∨ last.kind = .dedent
  /-- A line ends behind a token that is written. -/
  newline : ∀ before t after, tokens = before ++ t :: after → t.kind = .newline →
    ∃ last ∈ before.getLast?, last.kind.isSolid = true
  /-- Where a bracket is open there is no layout before the end of the text. -/
  brackets : ∀ before t after, tokens = before ++ t :: after → t.kind.isLayout = true →
    openBrackets before ≠ 0 → t.span.start.offset = text.length

/-! ### Tokens that follow one another -/

/-- Layout behind these tokens, which come last first, stands outside of brackets or at the end of
the text. -/
def Quiet (text : List UInt8) (tokens : List (Token TokenKind)) (span : Span) : Prop :=
  openBrackets tokens.reverse ≠ 0 → span.start.offset = text.length

/-- Tokens, last first, each of which may follow those before it. So many blocks are open. -/
inductive LaidOut (text : List UInt8) : List (Token TokenKind) → Nat → Prop where
  | nil : LaidOut text [] 0
  | solid {t : Token TokenKind} {tokens : List (Token TokenKind)} {depth : Nat}
    (before : LaidOut text tokens depth) (solid : t.kind.isSolid = true) :
    LaidOut text (t :: tokens) depth
  | newline {span : Span} {tokens : List (Token TokenKind)} {depth : Nat}
    (before : LaidOut text tokens depth) (quiet : Quiet text tokens span)
    (line : ∃ last ∈ tokens.head?, last.kind.isSolid = true) :
    LaidOut text (⟨.newline, span⟩ :: tokens) depth
  | indent {span : Span} {tokens : List (Token TokenKind)} {depth : Nat}
    (before : LaidOut text tokens depth) (quiet : Quiet text tokens span)
    (line : ∀ last ∈ tokens.head?, last.kind = .newline) :
    LaidOut text (⟨.indent, span⟩ :: tokens) (depth + 1)
  | dedent {span : Span} {tokens : List (Token TokenKind)} {depth : Nat}
    (before : LaidOut text tokens (depth + 1)) (quiet : Quiet text tokens span)
    (line : ∃ last ∈ tokens.head?, last.kind = .newline ∨ last.kind = .dedent) :
    LaidOut text (⟨.dedent, span⟩ :: tokens) depth
  | eof {span : Span} {tokens : List (Token TokenKind)}
    (before : LaidOut text tokens 0) (line : ∀ last ∈ tokens.head?, last.kind ≠ .indent) :
    LaidOut text (⟨.eof, span⟩ :: tokens) 0

section

variable {text : List UInt8} {tokens more : List (Token TokenKind)} {t : Token TokenKind}
  {span : Span} {depth n : Nat}

theorem openBrackets_reverse_cons :
    openBrackets (t :: tokens).reverse =
      Layout.countBrackets (openBrackets tokens.reverse) t.kind := by
  simp [openBrackets]

theorem openBrackets_dedents :
    openBrackets (List.replicate n (⟨.dedent, span⟩ : Token TokenKind) ++ tokens).reverse =
      openBrackets tokens.reverse := by
  induction n with
  | zero => rfl
  | succ n ih =>
    rw [List.replicate_succ, List.cons_append, openBrackets_reverse_cons, ih]
    rfl

theorem Quiet.of_outside (outside : openBrackets tokens.reverse = 0) : Quiet text tokens span :=
  fun inside => absurd outside inside

namespace LaidOut

theorem of_append (laid : LaidOut text (more ++ tokens) depth) :
    ∃ depth, LaidOut text tokens depth := by
  induction more generalizing depth with
  | nil => exact ⟨depth, laid⟩
  | cons t more ih => cases laid <;> apply ih <;> assumption

/-- The blocks that are open are those that were opened and have not been closed. -/
theorem indents_eq (laid : LaidOut text tokens depth) :
    indents tokens = dedents tokens + depth := by
  induction laid with
  | nil => rfl
  | @solid t tokens depth before solid ih =>
    have layout : (t.kind matches .indent) = false ∧ (t.kind matches .dedent) = false := by
      cases kind : t.kind <;> simp_all [TokenKind.isSolid, TokenKind.isLayout]
    simpa [indents, dedents, layout] using ih
  | newline before quiet line ih => simpa [indents, dedents] using ih
  | indent before quiet line ih =>
    simp [indents, dedents] at ih ⊢
    omega
  | dedent before quiet line ih =>
    simp [indents, dedents] at ih ⊢
    omega
  | eof before line ih => simpa [indents, dedents] using ih

/-- Behind a line blocks may be closed. -/
theorem dedents (laid : LaidOut text tokens (n + depth)) (quiet : Quiet text tokens span)
    (line : ∀ last ∈ tokens.head?, last.kind = .newline) :
    LaidOut text (List.replicate n ⟨.dedent, span⟩ ++ tokens) depth := by
  induction n generalizing depth with
  | zero => rwa [Nat.zero_add] at laid
  | succ n ih =>
    rw [Nat.add_assoc, Nat.add_comm 1] at laid
    have quiet' : Quiet text (List.replicate n ⟨.dedent, span⟩ ++ tokens) span := by
      rwa [Quiet, openBrackets_dedents]
    refine .dedent (ih laid) quiet' ?_
    cases n with
    | succ n => exact ⟨_, rfl, .inr rfl⟩
    | zero =>
      cases tokens with
      | nil =>
        rw [Nat.zero_add] at laid
        cases laid
      | cons last tokens => exact ⟨last, rfl, .inl (line last rfl)⟩

theorem line_of_indent (laid : LaidOut text (t :: tokens) depth) (indent : t.kind = .indent) :
    ∀ last ∈ tokens.head?, last.kind = .newline := by
  cases laid with
  | indent before quiet line => exact line
  | solid before solid =>
    rw [indent] at solid
    cases solid
  | _ => cases indent

theorem line_of_dedent (laid : LaidOut text (t :: tokens) depth) (dedent : t.kind = .dedent) :
    ∃ last ∈ tokens.head?, last.kind = .newline ∨ last.kind = .dedent := by
  cases laid with
  | dedent before quiet line => exact line
  | solid before solid =>
    rw [dedent] at solid
    cases solid
  | _ => cases dedent

theorem line_of_newline (laid : LaidOut text (t :: tokens) depth) (newline : t.kind = .newline) :
    ∃ last ∈ tokens.head?, last.kind.isSolid = true := by
  cases laid with
  | newline before quiet line => exact line
  | solid before solid =>
    rw [newline] at solid
    cases solid
  | _ => cases newline

theorem quiet_of_isLayout (laid : LaidOut text (t :: tokens) depth)
    (layout : t.kind.isLayout = true) : Quiet text tokens t.span := by
  cases laid with
  | newline before quiet line => exact quiet
  | indent before quiet line => exact quiet
  | dedent before quiet line => exact quiet
  | solid before solid => simp [TokenKind.isSolid, layout] at solid
  | eof => cases layout

/-- Behind the start of a block a token is written. -/
theorem isSolid_of_indent {next : Token TokenKind} (laid : LaidOut text (next :: t :: tokens) depth)
    (indent : t.kind = .indent) : next.kind.isSolid = true := by
  cases laid with
  | solid before solid => exact solid
  | newline before quiet line =>
    obtain ⟨last, ⟨⟩, solid⟩ := line
    rw [indent] at solid
    cases solid
  | indent before quiet line =>
    have same := line t rfl
    rw [indent] at same
    cases same
  | dedent before quiet line =>
    obtain ⟨last, ⟨⟩, same⟩ := line
    rw [indent] at same
    exact same.elim nofun nofun
  | eof before line => exact absurd indent (line t rfl)

/-- No block is closed that was not opened. -/
theorem dedents_le (laid : LaidOut text tokens depth) :
    Script.dedents tokens.reverse ≤ Script.indents tokens.reverse := by
  have counted := laid.indents_eq
  rw [Script.dedents, Script.indents, List.countP_reverse, List.countP_reverse]
  rw [Script.dedents, Script.indents] at counted
  omega

/-- Tokens in which all blocks are closed are well laid. -/
theorem wellLaid (laid : LaidOut text tokens.reverse 0) (ends : EndsOnce tokens) :
    WellLaid text tokens := by
  have first (before after : List (Token TokenKind)) (split : tokens = before ++ after) :
      ∃ depth, LaidOut text before.reverse depth := by
    rw [split, List.reverse_append] at laid
    exact of_append laid
  have upTo (before after : List (Token TokenKind)) (t : Token TokenKind)
      (split : tokens = before ++ t :: after) :
      ∃ depth, LaidOut text (t :: before.reverse) depth := by
    have laid := first (before ++ [t]) after (by rw [split, List.append_assoc]; rfl)
    rwa [List.reverse_append] at laid
  refine ⟨?nested, ?closed, ends, ?indent, ?dedent, ?newline, ?brackets⟩
  case nested =>
    intro before leads
    obtain ⟨after, split⟩ := leads
    obtain ⟨depth, laid⟩ := first before after split.symm
    have counted := laid.dedents_le
    rwa [List.reverse_reverse] at counted
  case closed =>
    have counted := laid.indents_eq
    rw [Script.indents, Script.dedents, List.countP_reverse, List.countP_reverse] at counted
    exact counted.symm
  case indent =>
    intro before t after split indent
    obtain ⟨depth, laid⟩ := upTo before after t split
    rw [← List.head?_reverse]
    refine ⟨laid.line_of_indent indent, ?_⟩
    cases after with
    | nil =>
      obtain ⟨others, last, whole, eof, -⟩ := ends
      have same := List.append_inj_right' (split.symm.trans whole) rfl
      rw [← (List.cons.inj same).1, indent] at eof
      cases eof
    | cons next more =>
      obtain ⟨depth, laid⟩ := upTo (before ++ [t]) more next (by rw [split, List.append_assoc]; rfl)
      rw [List.reverse_append] at laid
      exact ⟨next, rfl, laid.isSolid_of_indent indent⟩
  case dedent =>
    intro before t after split dedent
    obtain ⟨depth, laid⟩ := upTo before after t split
    rw [← List.head?_reverse]
    exact laid.line_of_dedent dedent
  case newline =>
    intro before t after split newline
    obtain ⟨depth, laid⟩ := upTo before after t split
    rw [← List.head?_reverse]
    exact laid.line_of_newline newline
  case brackets =>
    intro before t after split layout inside
    obtain ⟨depth, laid⟩ := upTo before after t split
    apply laid.quiet_of_isLayout layout
    rwa [List.reverse_reverse]

end LaidOut

end

namespace Layout

variable {text : List UInt8} {s t : Layout}

/-! ### Reading -/

/-- What holds of the tokens whenever reading has come to a cursor of the text. Where a line begins
the last one has ended. -/
structure Sound (text : List UInt8) (s : Layout) : Prop where
  cursor : s.cursor.IsIn text
  laid : LaidOut text s.tokens s.levels.length
  brackets : openBrackets s.tokens.reverse = s.brackets
  outside : s.lineStart = true → s.brackets = 0
  line : s.lineStart = true → ∀ last ∈ s.tokens.head?, last.kind = .newline
  last : ∀ last ∈ s.tokens.head?, last.kind.isSolid = true ∨ last.kind = .newline

/-- Passing what is no token changes nothing. -/
theorem Sound.passed (h : s.Sound text) {bytes : List UInt8} {d : Cursor}
    (crosses : s.cursor.skipBlanks.Crosses bytes d) : Sound text { s with cursor := d } :=
  { h with cursor := (h.cursor.moved .skipWhile).moved crosses.movesTo }

/-- A token is read where the tokens so far may be followed by it. -/
theorem Sound.read {p : Pos} {kind : TokenKind} {d : Cursor}
    (laid : LaidOut text s.tokens s.levels.length)
    (brackets : openBrackets s.tokens.reverse = s.brackets) (inLine : s.lineStart = false)
    (solid : kind.isSolid = true) (cursor : d.IsIn text) : Sound text (s.read p kind d) where
  cursor := cursor
  laid := .solid laid solid
  brackets := openBrackets_reverse_cons.trans (congrArg (countBrackets · kind) brackets)
  outside := fun lineStart => absurd (inLine.symm.trans lineStart) nofun
  line := fun lineStart => absurd (inLine.symm.trans lineStart) nofun
  last := by
    intro last here
    cases here
    exact .inl solid

/-- The blocks of a line are laid out, and it may go on with a token. -/
theorem Sound.indents (h : s.Sound text) (begins : s.BeginsLine) {width : Nat} {span : Span}
    {c : Cursor} (indented : Indents width span { s with cursor := c, lineStart := false } t) :
    LaidOut text t.tokens t.levels.length ∧ openBrackets t.tokens.reverse = t.brackets ∧
      t.lineStart = false := by
  have line := h.line begins.1
  have quiet : Quiet text s.tokens span := .of_outside (h.brackets.trans begins.2)
  cases indented with
  | deeper less =>
    exact ⟨.indent h.laid quiet line, openBrackets_reverse_cons.trans h.brackets, rfl⟩
  | @back closed levels split inner same =>
    have counted : s.levels.length = closed.length + levels.length := by
      rw [← List.length_append]
      exact congrArg List.length split
    exact ⟨.dedents (counted ▸ h.laid) quiet line, openBrackets_dedents.trans h.brackets, rfl⟩

/-- Where a line has not been ended its last token is written. -/
theorem Sound.solid_of_needsNewline (h : s.Sound text) (open_ : s.needsNewline = true) :
    ∃ last ∈ s.tokens.head?, last.kind.isSolid = true := by
  unfold needsNewline at open_
  cases tokens : s.tokens with
  | nil =>
    rw [tokens] at open_
    cases open_
  | cons last before =>
    have kinds := h.last last (by rw [tokens]; rfl)
    rw [tokens] at open_
    refine ⟨last, rfl, kinds.resolve_right fun newline => ?_⟩
    simp [newline, TokenKind.isLayout] at open_

/-- Where a line has been ended its last token says so. -/
theorem Sound.newline_of_not_needsNewline (h : s.Sound text) (ended : s.needsNewline = false) :
    ∀ last ∈ s.tokens.head?, last.kind = .newline := by
  intro last here
  refine (h.last last here).resolve_left fun solid => ?_
  obtain ⟨before, tokens⟩ := List.head?_eq_some_iff.1 here
  simp [needsNewline, tokens] at ended
  simp [TokenKind.isSolid, ended] at solid

theorem Sound.step (h : s.Sound text) (one : Step s t) : t.Sound text := by
  have blanks : s.cursor.skipBlanks.IsIn text := h.cursor.moved .skipWhile
  cases one with
  | blankLine begins crosses ends => exact h.passed crosses
  | commentLine begins crosses comment ends => exact h.passed crosses
  | comment inside crosses comment => exact h.passed crosses
  | join crosses ends => exact h.passed crosses
  | lineBreak inside crosses ends => exact h.passed crosses
  | @lineEnd bytes d inside outside crosses ends =>
    have cursor := blanks.moved crosses.movesTo
    split
    · rename_i open_
      have quiet : Quiet text s.tokens ⟨s.cursor.skipBlanks.pos, d.pos⟩ :=
        .of_outside (h.brackets.trans outside)
      refine ⟨cursor, .newline h.laid quiet (h.solid_of_needsNewline open_),
        openBrackets_reverse_cons.trans h.brackets, fun _ => outside, fun _ last here => ?_,
        fun last here => ?_⟩
      · cases here
        rfl
      · cases here
        exact .inr rfl
    · rename_i open_
      have ended := h.newline_of_not_needsNewline (eq_false_of_ne_true open_)
      exact { h with cursor := cursor, outside := fun _ => outside, line := fun _ => ended }
  | token inside here start found =>
    obtain ⟨bytes, crosses, spelt⟩ := spelt_of_readToken found
    have inLine : s.lineStart = false := by
      by_contra begins
      rw [Bool.not_eq_false] at begins
      exact inside ⟨begins, h.outside begins⟩
    exact .read h.laid h.brackets inLine spelt.isSolid (blanks.moved crosses.movesTo)
  | line begins here start indented found =>
    obtain ⟨bytes, crosses, spelt⟩ := spelt_of_readToken found
    obtain ⟨laid, brackets, inLine⟩ := h.indents begins indented
    exact .read laid brackets inLine spelt.isSolid (blanks.moved crosses.movesTo)

/-- At the end of the text the last line is ended. -/
theorem Sound.ended (h : s.Sound text) {span : Span} (quiet : Quiet text s.tokens span) :
    ∃ tokens, tokens = (if s.needsNewline then [⟨.newline, span⟩] else []) ++ s.tokens ∧
      LaidOut text tokens s.levels.length ∧ ∀ last ∈ tokens.head?, last.kind = .newline := by
  split
  · rename_i open_
    refine ⟨_, rfl, .newline h.laid quiet (h.solid_of_needsNewline open_), fun last here => ?_⟩
    cases here
    rfl
  · rename_i open_
    exact ⟨_, rfl, h.laid, h.newline_of_not_needsNewline (eq_false_of_ne_true open_)⟩

theorem Sound.finish (h : s.Sound text) (last : s.cursor.skipBlanks.rest = []) :
    LaidOut text (s.finish s.cursor.skipBlanks.pos).reverse 0 := by
  have atEnd : s.cursor.skipBlanks.pos.offset = text.length := by
    have counted := (h.cursor.moved .skipWhile : s.cursor.skipBlanks.IsIn text).offset_add_length
    rw [last] at counted
    simpa [Cursor.ofBytes, Pos.start] using counted
  have quiet (tokens : List (Token TokenKind)) :
      Quiet text tokens (.point s.cursor.skipBlanks.pos) := fun _ => atEnd
  generalize s.cursor.skipBlanks.pos = stop at quiet
  obtain ⟨tokens, same, laid, line⟩ := h.ended (quiet s.tokens)
  have whole : (s.finish stop).reverse =
      ⟨.eof, .point stop⟩ :: (List.replicate s.levels.length ⟨.dedent, .point stop⟩ ++ tokens) := by
    rw [finish_eq, ending, same]
    split <;> simp
  rw [whole]
  refine .eof (.dedents laid (quiet _) line) fun last here => ?_
  cases depth : s.levels.length with
  | zero =>
    rw [depth] at here
    rw [line last here]
    rintro ⟨⟩
  | succ depth =>
    rw [depth] at here
    cases here
    rintro ⟨⟩

theorem Sound.run {tokens : List (Token TokenKind)} (h : s.Sound text) (done : s.run = .ok tokens) :
    LaidOut text tokens.reverse 0 := by
  fun_induction Layout.run s with
  | case1 s e stop => cases done
  | case2 s stop =>
    cases done
    exact h.finish (step_eq_none_iff.1 stop)
  | case3 s next more less ih => exact ih (h.step (step_eq_some_iff.1 more)) done

end Layout

/-- The layout tokens of every script that has tokens are well formed. -/
theorem tokens_wellLaid {text : List UInt8} {tokens : List (Token TokenKind)}
    (done : Script.tokens text = .ok tokens) : WellLaid text tokens := by
  have start : (Layout.start text).Sound text :=
    ⟨.refl, .nil, rfl, fun _ => rfl, fun _ => nofun, nofun⟩
  exact (start.run done).wellLaid (tokens_endsOnce done)

/-- A line break inside brackets, in a block. -/
theorem tokens_wellLaid_block :
    ∃ tokens, Script.tokens (utf8 "with a:\n  b(\n1)\n") = .ok tokens ∧
      WellLaid (utf8 "with a:\n  b(\n1)\n") tokens ∧ indents tokens = 1 := by
  have lexed : ((Script.tokens (utf8 "with a:\n  b(\n1)\n")).toOption.map indents) = some 1 := by
    decide +kernel
  obtain ⟨tokens, lexed, opened⟩ := ok_of_known lexed
  exact ⟨tokens, lexed, tokens_wellLaid lexed, opened⟩

end ScoreScript.Script
