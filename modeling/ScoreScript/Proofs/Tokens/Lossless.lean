import ScoreScript.Proofs.Tokens.Spelling

/-!
Nothing visible is lost between the tokens of a script. Each step of reading passes what may stand
between tokens, and perhaps one token behind it (`Progress`); so the text is woven from tokens as
they are spelled and from gaps of blanks, line breaks, comments and line continuations
(`tokens_lossless`).
-/

namespace ScoreScript.Script

open Cursor Layout

/-- What stands between tokens, before the bytes that follow it. -/
inductive IsGap : List UInt8 → List UInt8 → Prop where
  | nil {rest : List UInt8} : IsGap [] rest
  | blank {b : UInt8} {gap rest : List UInt8} (blank : isBlank b = true) (more : IsGap gap rest) :
    IsGap (b :: gap) rest
  | lineBreak {bytes gap rest : List UInt8} (ends : IsBreak bytes (gap ++ rest))
    (more : IsGap gap rest) : IsGap (bytes ++ gap) rest
  | comment {bytes gap rest : List UInt8} (comment : IsComment bytes (gap ++ rest))
    (more : IsGap gap rest) : IsGap (bytes ++ gap) rest
  /-- A line that is continued behind a backslash. -/
  | join {bytes gap rest : List UInt8} (ends : IsFeed bytes) (more : IsGap gap rest) :
    IsGap (0x5C :: (bytes ++ gap)) rest

/-- A text, from an offset on, that consists of tokens as they are written and of what stands
between them. -/
inductive Woven : Nat → List UInt8 → List (Token TokenKind) → Prop where
  | nil {offset : Nat} {gap : List UInt8} (last : IsGap gap []) : Woven offset gap []
  | token {offset : Nat} {gap bytes rest : List UInt8} {t : Token TokenKind}
    {tokens : List (Token TokenKind)} (first : IsGap gap (bytes ++ rest))
    (spelt : Spelt t.kind bytes rest) (start : t.span.start.offset = offset + gap.length)
    (stop : t.span.stop.offset = t.span.start.offset + bytes.length)
    (later : Woven t.span.stop.offset rest tokens) :
    Woven offset (gap ++ (bytes ++ rest)) (t :: tokens)

/-- The spans of the tokens lie in the text in order, and outside of those that are written there is
nothing but what may stand between tokens. -/
structure Lossless (text : List UInt8) (tokens : List (Token TokenKind)) : Prop where
  inside : ∀ t ∈ tokens, t.span.start.IsIn text ∧ t.span.stop.IsIn text ∧
    t.span.start.offset ≤ t.span.stop.offset
  starts : tokens.Pairwise fun a b => a.span.start.offset ≤ b.span.start.offset
  stops : tokens.Pairwise fun a b => a.span.stop.offset ≤ b.span.stop.offset
  woven : Woven 0 text (tokens.filter (·.kind.isSolid))

section

variable {gap more rest : List UInt8} {offset : Nat} {tokens : List (Token TokenKind)}

namespace IsGap

theorem append (first : IsGap gap (more ++ rest)) (second : IsGap more rest) :
    IsGap (gap ++ more) rest := by
  generalize whole : more ++ rest = behind at first
  induction first with
  | nil => exact second
  | blank blank later ih => exact .blank blank (ih whole)
  | lineBreak ends later ih =>
    rw [← whole, ← List.append_assoc] at ends
    rw [List.append_assoc]
    exact .lineBreak ends (ih whole)
  | comment comment later ih =>
    rw [← whole, ← List.append_assoc] at comment
    rw [List.append_assoc]
    exact .comment comment (ih whole)
  | join ends later ih =>
    rw [List.cons_append, List.append_assoc]
    exact .join ends (ih whole)

theorem of_blanks (all : ∀ b ∈ gap, isBlank b = true) : IsGap gap rest := by
  induction gap with
  | nil => exact .nil
  | cons b gap ih =>
    rw [List.forall_mem_cons] at all
    exact .blank all.1 (ih all.2)

theorem of_isBreak (ends : IsBreak gap rest) : IsGap gap rest := by
  rw [← List.append_nil gap]
  exact .lineBreak ends .nil

theorem of_isComment (comment : IsComment gap rest) : IsGap gap rest := by
  rw [← List.append_nil gap]
  exact .comment comment .nil

theorem of_isFeed (ends : IsFeed gap) : IsGap (0x5C :: gap) rest := by
  rw [← List.append_nil gap]
  exact .join ends .nil

theorem of_isLineEnd (ends : IsLineEnd gap rest) : IsGap gap rest := by
  rcases ends with ends | ⟨rfl, -⟩
  · exact .of_isBreak ends
  · exact .nil

end IsGap

/-- What stands before a gap is part of it. -/
theorem Woven.behind (first : IsGap gap rest) (woven : Woven (offset + gap.length) rest tokens) :
    Woven offset (gap ++ rest) tokens := by
  cases woven with
  | nil last =>
    rw [← List.append_nil rest] at first
    exact .nil (first.append last)
  | @token _ more bytes rest t tokens second spelt start stop later =>
    rw [← List.append_assoc]
    refine .token (first.append second) spelt ?_ stop later
    rw [start, List.length_append]
    omega

end

namespace Layout

variable {s t : Layout} {added new : List (Token TokenKind)}

/-- Layout in order, all of which begins between two offsets. -/
structure LayoutWithin (first last : Nat) (tokens : List (Token TokenKind)) : Prop where
  empty : ∀ t ∈ tokens, t.kind.isSolid = false
  ge : ∀ t ∈ tokens, first ≤ t.span.start.offset
  le : ∀ t ∈ tokens, t.span.start.offset ≤ last
  sorted : tokens.Pairwise fun a b => a.span.start.offset ≤ b.span.start.offset

/-- What a step passes, and the tokens that it adds: layout, and perhaps a token that is written
behind it. -/
inductive Progress (s : Layout) : List (Token TokenKind) → Layout → Prop where
  | gap {gap : List UInt8} {layout : List (Token TokenKind)} {t : Layout}
    (crosses : s.cursor.Crosses gap t.cursor) (isGap : IsGap gap t.cursor.rest)
    (within : LayoutWithin s.cursor.pos.offset t.cursor.pos.offset layout)
    (tokens : t.tokens = layout.reverse ++ s.tokens) : Progress s layout t
  | token {gap bytes : List UInt8} {layout : List (Token TokenKind)} {t : Layout} {c : Cursor}
    {kind : TokenKind} (crosses : s.cursor.Crosses gap c) (isGap : IsGap gap c.rest)
    (written : c.Crosses bytes t.cursor) (spelt : Spelt kind bytes t.cursor.rest)
    (within : LayoutWithin s.cursor.pos.offset c.pos.offset layout)
    (tokens : t.tokens =
      (layout ++ [(⟨kind, ⟨c.pos, t.cursor.pos⟩⟩ : Token TokenKind)]).reverse ++ s.tokens) :
    Progress s (layout ++ [⟨kind, ⟨c.pos, t.cursor.pos⟩⟩]) t

theorem Progress.tokens (progress : Progress s added t) : t.tokens = added.reverse ++ s.tokens := by
  cases progress with
  | gap crosses isGap within tokens => exact tokens
  | token crosses isGap written spelt within tokens => exact tokens

theorem LayoutWithin.replicate {first last n : Nat} {kind : TokenKind} {span : Span}
    (empty : kind.isSolid = false) (ge : first ≤ span.start.offset)
    (le : span.start.offset ≤ last) :
    LayoutWithin first last (List.replicate n (⟨kind, span⟩ : Token TokenKind)) where
  empty t inside := by rwa [List.eq_of_mem_replicate inside]
  ge t inside := by rwa [List.eq_of_mem_replicate inside]
  le t inside := by rwa [List.eq_of_mem_replicate inside]
  sorted := List.pairwise_replicate.2 (.inr (Nat.le_refl _))

theorem LayoutWithin.filter_eq_nil {first last : Nat} {tokens : List (Token TokenKind)}
    (within : LayoutWithin first last tokens) : tokens.filter (·.kind.isSolid) = [] :=
  List.filter_eq_nil_iff.2 fun t inside => ne_true_of_eq_false (within.empty t inside)

theorem LayoutWithin.nil {first last : Nat} : LayoutWithin first last [] :=
  ⟨nofun, nofun, nofun, .nil⟩

section

variable {bytes : List UInt8} {d : Cursor}

/-- The blanks before a gap are part of it. -/
theorem exists_gap (crosses : s.cursor.skipBlanks.Crosses bytes d) (isGap : IsGap bytes d.rest) :
    ∃ gap, s.cursor.Crosses gap d ∧ IsGap gap d.rest := by
  have blanks := Crosses.of_skipWhile s.cursor isBlank
  refine ⟨_, blanks.trans crosses, .append (.of_blanks fun b member => ?_) isGap⟩
  exact List.mem_takeWhile_imp member

theorem exists_blanks (s : Layout) :
    ∃ gap, s.cursor.Crosses gap s.cursor.skipBlanks ∧ IsGap gap s.cursor.skipBlanks.rest :=
  ⟨_, .of_skipWhile s.cursor isBlank, .of_blanks fun _ member => List.mem_takeWhile_imp member⟩

/-- A step without tokens. -/
theorem Progress.passed (crosses : s.cursor.skipBlanks.Crosses bytes d) (isGap : IsGap bytes d.rest)
    (here : t.cursor = d) (same : t.tokens = s.tokens) : Progress s [] t := by
  obtain ⟨gap, crosses, isGap⟩ := exists_gap crosses isGap
  subst here
  exact .gap crosses isGap .nil same

end

theorem Step.progress (one : Step s t) : ∃ added, Progress s added t := by
  have blanks : s.cursor.MovesTo s.cursor.skipBlanks := .skipWhile
  cases one with
  | blankLine begins crosses ends => exact ⟨[], .passed crosses (.of_isBreak ends) rfl rfl⟩
  | commentLine begins crosses comment ends =>
    exact ⟨[], .passed crosses (.append (.of_isComment comment) (.of_isLineEnd ends)) rfl rfl⟩
  | comment inside crosses comment => exact ⟨[], .passed crosses (.of_isComment comment) rfl rfl⟩
  | join crosses ends => exact ⟨[], .passed crosses (.of_isFeed ends) rfl rfl⟩
  | lineBreak inside crosses ends => exact ⟨[], .passed crosses (.of_isBreak ends) rfl rfl⟩
  | @lineEnd bytes d inside outside crosses ends =>
    have newline : TokenKind.newline.isSolid = false := rfl
    split
    · obtain ⟨gap, behind, isGap⟩ := exists_gap crosses (.of_isBreak ends)
      exact ⟨[⟨.newline, ⟨s.cursor.skipBlanks.pos, d.pos⟩⟩], .gap behind isGap
        (.replicate (n := 1) newline blanks.offset_le crosses.movesTo.offset_le) rfl⟩
    · exact ⟨[], .passed crosses (.of_isBreak ends) rfl rfl⟩
  | token inside here start found =>
    obtain ⟨bytes, written, spelt⟩ := spelt_of_readToken found
    obtain ⟨gap, crosses, isGap⟩ := s.exists_blanks
    exact ⟨_, .token crosses isGap written spelt .nil rfl⟩
  | line begins here start indented found =>
    obtain ⟨bytes, written, spelt⟩ := spelt_of_readToken found
    obtain ⟨gap, crosses, isGap⟩ := s.exists_blanks
    have indent : TokenKind.indent.isSolid = false := rfl
    have dedent : TokenKind.dedent.isSolid = false := rfl
    have first : s.cursor.pos.offset ≤
      (⟨s.cursor.pos, s.cursor.skipBlanks.pos⟩ : Span).start.offset := Nat.le_refl _
    cases indented with
    | deeper less =>
      exact ⟨_, .token crosses isGap written spelt
        (.replicate (n := 1) indent first blanks.offset_le) rfl⟩
    | @back closed levels split inner same =>
      refine ⟨_, .token crosses isGap written spelt
        (.replicate (n := closed.length) dedent first blanks.offset_le) ?_⟩
      rw [List.reverse_append, List.reverse_replicate]
      rfl

/-- Tokens that are still to come, from a state on. -/
structure Ahead (s : Layout) (tokens : List (Token TokenKind)) : Prop where
  woven : Woven s.cursor.pos.offset s.cursor.rest (tokens.filter (·.kind.isSolid))
  starts : tokens.Pairwise fun a b => a.span.start.offset ≤ b.span.start.offset
  le_start : ∀ t ∈ tokens, s.cursor.pos.offset ≤ t.span.start.offset

theorem Ahead.progress (ahead : Ahead t new) (progress : Progress s added t) :
    Ahead s (added ++ new) := by
  cases progress with
  | gap crosses isGap within tokens =>
    have later := crosses.movesTo.offset_le
    constructor
    · rw [List.filter_append, within.filter_eq_nil, List.nil_append, crosses.rest]
      refine .behind isGap ?_
      rw [← Pos.offset_after, ← crosses.pos]
      exact ahead.woven
    · refine List.pairwise_append.2 ⟨within.sorted, ahead.starts, fun a first b second => ?_⟩
      exact Nat.le_trans (within.le a first) (ahead.le_start b second)
    · intro t inside
      rcases List.mem_append.1 inside with first | second
      · exact within.ge t first
      · exact Nat.le_trans later (ahead.le_start t second)
  | @token gap bytes layout t c kind crosses isGap written spelt within tokens =>
    have before := crosses.movesTo.offset_le
    have later := written.movesTo.offset_le
    have start : c.pos.offset = s.cursor.pos.offset + gap.length := by
      rw [crosses.pos, Pos.offset_after]
    have stop : t.cursor.pos.offset = c.pos.offset + bytes.length := by
      rw [written.pos, Pos.offset_after]
    have sorted : ((⟨kind, ⟨c.pos, t.cursor.pos⟩⟩ : Token TokenKind) :: new).Pairwise
        fun a b => a.span.start.offset ≤ b.span.start.offset :=
      List.pairwise_cons.2 ⟨fun b inside => Nat.le_trans later (ahead.le_start b inside),
        ahead.starts⟩
    rw [List.append_assoc, List.singleton_append]
    constructor
    · rw [List.filter_append, within.filter_eq_nil, List.nil_append, List.filter_cons,
        if_pos spelt.isSolid, crosses.rest, written.rest]
      rw [written.rest] at isGap
      exact .token isGap spelt start stop ahead.woven
    · refine List.pairwise_append.2 ⟨within.sorted, sorted, fun a first b second => ?_⟩
      rcases List.mem_cons.1 second with rfl | behind
      · exact within.le a first
      · exact (within.le a first).trans (later.trans (ahead.le_start b behind))
    · intro t inside
      rcases List.mem_append.1 inside with first | second
      · exact within.ge t first
      · rcases List.mem_cons.1 second with rfl | behind
        · exact before
        · exact before.trans (later.trans (ahead.le_start t behind))

/-- At the end of the text there is nothing left but a gap. -/
theorem Ahead.ending (last : s.cursor.skipBlanks.rest = []) :
    Ahead s (s.ending s.cursor.skipBlanks.pos) := by
  have start (t : Token TokenKind) (added : t ∈ s.ending s.cursor.skipBlanks.pos) :
      t.span.start.offset = s.cursor.skipBlanks.pos.offset := by
    rw [(of_mem_ending added).2]
    rfl
  have none : (s.ending s.cursor.skipBlanks.pos).filter (·.kind.isSolid) = [] :=
    List.filter_eq_nil_iff.2 fun t added => ne_true_of_eq_false (of_mem_ending added).1
  constructor
  · obtain ⟨gap, crosses, isGap⟩ := s.exists_blanks
    rw [none, crosses.rest, last, List.append_nil]
    exact .nil (last ▸ isGap)
  · apply List.pairwise_of_forall_mem_list
    intro a first b second
    exact Nat.le_of_eq ((start a first).trans (start b second).symm)
  · intro t added
    rw [start t added]
    exact Cursor.MovesTo.offset_le .skipWhile

theorem Ahead.run {tokens : List (Token TokenKind)} (done : s.run = .ok tokens) :
    ∃ new, tokens = s.tokens.reverse ++ new ∧ Ahead s new := by
  fun_induction Layout.run s with
  | case1 s e stop => cases done
  | case2 s stop =>
    cases done
    exact ⟨_, s.finish_eq _, .ending (step_eq_none_iff.1 stop)⟩
  | case3 s next more less ih =>
    obtain ⟨new, split, ahead⟩ := ih done
    obtain ⟨added, progress⟩ := (step_eq_some_iff.1 more).progress
    refine ⟨added ++ new, ?_, ahead.progress progress⟩
    rw [split, progress.tokens, List.reverse_append, List.reverse_reverse, List.append_assoc]

end Layout

/-- Every script that has tokens is woven from them and from gaps. -/
theorem tokens_lossless {text : List UInt8} {tokens : List (Token TokenKind)}
    (done : Script.tokens text = .ok tokens) : Lossless text tokens := by
  have placed := tokens_inOrder done
  obtain ⟨new, rfl, ahead⟩ := Ahead.run (s := .start text) done
  exact ⟨fun t inside => ⟨(placed.placed t inside).start, (placed.placed t inside).stop,
    (placed.placed t inside).le⟩, ahead.starts, placed.pairwise.imp fun after => after.stop,
    ahead.woven⟩

/-- A line that is continued, with a comment behind it. -/
theorem tokens_lossless_continued :
    ∃ tokens, Script.tokens (utf8 "a **= \\\n  b # c\n") = .ok tokens ∧
      Lossless (utf8 "a **= \\\n  b # c\n") tokens ∧ tokens.countP (·.kind.isSolid) = 3 := by
  have lexed : ((Script.tokens (utf8 "a **= \\\n  b # c\n")).toOption.map
      (List.countP (·.kind.isSolid))) = some 3 := by
    decide +kernel
  obtain ⟨tokens, lexed, written⟩ := ok_of_known lexed
  exact ⟨tokens, lexed, tokens_lossless lexed, written⟩

end ScoreScript.Script
