import Mathlib.Logic.Relation
import ScoreScript.Proofs.Brackets.Statement
import ScoreScript.Proofs.Holes.Script
import ScoreScript.Proofs.Tokens.Lossless

/-!
The brackets of a script that can be read. Its rule closes all that it opens and leaves nothing but
the end of the text, so its tokens are nested. When it was read to tokens, before any rule looked at
them, the brackets were only counted; but as the tokens are nested the count was the depth at every
place, and each line ended or went on as it should (`Module.brackets_counted`). The same holds of
the line that is read of a hole (`Module.Holds.brackets_of_firstLine`).
-/

namespace ScoreScript.Script

open Bracket

variable {text : List UInt8} {tokens after : List (Token TokenKind)}

/-! ### Tokens that are read -/

/-- Tokens that are not written open and close no brackets. -/
theorem passAll_of_layout {stack : List Bracket} (empty : ∀ t ∈ tokens, t.kind.isSolid = false) :
    passAll stack tokens = some stack := by
  induction tokens with
  | nil => rfl
  | cons t tokens ih =>
    obtain ⟨first, others⟩ := List.forall_mem_cons.1 empty
    have plain : pass stack t.kind = some stack := by
      cases kind : t.kind <;> rw [kind] at first <;> first | rfl | cases first
    rw [passAll_cons, plain]
    exact ih others

theorem Module.nested_of_ofTokens {depth levels : Nat} {m : Module}
    (parsed : Module.ofTokens depth levels tokens = .ok m) (ends : EndsOnce tokens) :
    Nested tokens := by
  let hole := Grammar.readHole levels
  let k := Grammar.knot hole tokens.length
  obtain ⟨⟨m, t⟩, done, ⟨⟩⟩ := ok_of_bind
    (show Grammar.script k tokens.length ⟨depth, 0⟩ (.ofTokens tokens) >>= _ = .ok m from parsed)
  obtain ⟨used, split, passed⟩ :=
    Grammar.script_closes (Grammar.rounds_closes hole (tokens.length + 1)) _ _ m t done
  have ended : t.current.kind.isEof = true :=
    (Grammar.script_ends (Grammar.knot_covers (some k) hole tokens.length)
      (Grammar.knot_advances tokens.length) m t done).2
  change tokens = used ++ t.rest at split
  rw [nested_iff, split, passAll_append, passed]
  refine passAll_of_layout ?_
  cases rest : t.rest with
  | nil => exact List.forall_mem_nil _
  | cons first others =>
    rw [Stream.current, rest, List.headD_cons] at ended
    rw [split, rest] at ends
    rw [Grammar.rest_of_endsOnce ends ended]
    refine List.forall_mem_singleton.2 ?_
    cases kind : first.kind <;> rw [kind] at ended <;> first | rfl | cases ended

theorem IsFirstLine.nested {value : Expr} (read : IsFirstLine tokens value) :
    Nested (firstLine tokens) := by
  obtain ⟨levels, n, t, done, rest⟩ := read
  have closes := Grammar.rounds_closes (Grammar.readHole levels) (tokens.length + 1)
  obtain ⟨used, split, passed⟩ := Grammar.expressions_closes closes _ n value t done
  change tokens = used ++ t.rest at split
  have whole : firstLine tokens ++ otherLines tokens = tokens := List.takeWhile_append_dropWhile
  rw [rest] at split
  rw [List.append_cancel_right (whole.trans split)]
  exact nested_iff.2 passed

/-! ### The count -/

def openings (tokens : List (Token TokenKind)) : Nat :=
  tokens.countP fun t => (opens? t.kind).isSome

def closings (tokens : List (Token TokenKind)) : Nat :=
  tokens.countP fun t => (closes? t.kind).isSome

theorem openings_of_passAll {stack stack' : List Bracket}
    (passed : passAll stack tokens = some stack') :
    openings tokens + stack.length = closings tokens + stack'.length := by
  induction tokens generalizing stack with
  | nil =>
    cases passed
    rfl
  | cons t tokens ih =>
    rw [passAll_cons] at passed
    obtain ⟨between, first, later⟩ := Option.bind_eq_some_iff.1 passed
    have counted := ih later
    obtain ⟨b, opens, rfl⟩ | ⟨opens, closes, rfl⟩ | ⟨b, closes, rfl⟩ := pass_cases first
    · have opened : openings (t :: tokens) = openings tokens + 1 :=
        List.countP_cons_of_pos (by simp [opens])
      have closed : closings (t :: tokens) = closings tokens :=
        List.countP_cons_of_neg (by simp [closes?_of_opens? opens])
      rw [List.length_cons] at counted
      omega
    · have opened : openings (t :: tokens) = openings tokens :=
        List.countP_cons_of_neg (by simp [opens])
      have closed : closings (t :: tokens) = closings tokens :=
        List.countP_cons_of_neg (by simp [closes])
      omega
    · have opened : openings (t :: tokens) = openings tokens :=
        List.countP_cons_of_neg (by simp [opens?_of_closes? closes])
      have closed : closings (t :: tokens) = closings tokens + 1 :=
        List.countP_cons_of_pos (by simp [closes])
      rw [List.length_cons]
      omega

namespace Layout

variable {s t : Layout}

/-- Reading the text comes to this state. -/
def Visited (text : List UInt8) : Layout → Prop :=
  Relation.ReflTransGen Step (start text)

theorem Visited.sound (visited : Visited text s) : s.Sound text := by
  induction visited with
  | refl => exact ⟨.refl, .nil, rfl, fun _ => rfl, fun _ => nofun, nofun⟩
  | tail _ one ih => exact ih.step one

theorem Visited.run (visited : Visited text s) (done : Script.tokens text = .ok tokens) :
    s.run = .ok tokens := by
  induction visited with
  | refl => exact done
  | tail _ one ih => exact (run_some (step_eq_some_iff.2 one)).symm.trans ih

/-- The step passes the break at the end of a line, perhaps with a comment before it. -/
def PassesBreak (s t : Layout) : Prop :=
  ∃ comment bytes, s.cursor.skipBlanks.Crosses (comment ++ bytes) t.cursor ∧
    (comment = [] ∨ IsComment comment (bytes ++ t.cursor.rest)) ∧ IsBreak bytes t.cursor.rest

theorem PassesBreak.current (passes : PassesBreak s t) :
    ∃ b, s.cursor.skipBlanks.current = some b ∧ (b = 0x23 ∨ isLineBreak b = true) := by
  obtain ⟨comment, bytes, crosses, rfl | written, ends⟩ := passes
  · obtain ⟨b, here, ends⟩ := ends.current crosses
    exact ⟨b, here, .inr ends⟩
  · exact ⟨0x23, written.current crosses, .inl rfl⟩

theorem PassesBreak.not_isTokenStart (passes : PassesBreak s t) {b : UInt8}
    (here : s.cursor.skipBlanks.current = some b) : ¬isTokenStart b = true := by
  obtain ⟨b', here', other⟩ := passes.current
  cases here.symm.trans here'
  rcases other with rfl | ends
  · decide
  · simp only [isLineBreak, Bool.or_eq_true, beq_iff_eq] at ends
    rcases ends with rfl | rfl <;> decide

/-- A break is no part of a comment. -/
theorem PassesBreak.not_comment (passes : PassesBreak s t) {bytes : List UInt8}
    (crosses : s.cursor.skipBlanks.Crosses bytes t.cursor) :
    ¬IsComment bytes t.cursor.rest := by
  rintro ⟨⟨body, rfl, inLine⟩, -⟩
  obtain ⟨comment, bytes, crosses', written, ends⟩ := passes
  have same := crosses.unique crosses'
  obtain ⟨b, last, isBreak⟩ : ∃ b ∈ bytes, isLineBreak b = true := by
    cases ends <;> exact ⟨_, List.mem_cons_self, rfl⟩
  have inside : b ∈ 0x23 :: body := same ▸ List.mem_append_right _ last
  rcases List.mem_cons.1 inside with rfl | inBody
  · cases isBreak
  · cases isBreak.symm.trans (inLine b inBody)

theorem Sound.not_needsNewline (h : s.Sound text) (begins : s.BeginsLine) :
    s.needsNewline = false := by
  unfold needsNewline
  cases tokens : s.tokens with
  | nil => rfl
  | cons last before =>
    have newline := h.line begins.1 last (by rw [tokens]; rfl)
    simp [newline, TokenKind.isLayout]

/-- A break that comes next is passed. -/
theorem exists_step_of_isBreak {bytes : List UInt8} {d : Cursor}
    (crosses : s.cursor.skipBlanks.Crosses bytes d) (ends : IsBreak bytes d.rest) :
    ∃ t, Step s t ∧ t.cursor = d := by
  by_cases begins : s.BeginsLine
  · exact ⟨_, .blankLine begins crosses ends, rfl⟩
  by_cases outside : s.brackets = 0
  · refine ⟨_, .lineEnd begins outside crosses ends, ?_⟩
    split <;> rfl
  · exact ⟨_, .lineBreak outside crosses ends, rfl⟩

/-- Where no bracket is counted the line ends with its break, and elsewhere it goes on. -/
theorem Sound.passesBreak (h : s.Sound text) (one : Step s t) (passes : PassesBreak s t) :
    (s.brackets = 0 → t.BeginsLine ∧ t.needsNewline = false) ∧
      (s.brackets ≠ 0 → t = { s with cursor := t.cursor }) := by
  cases one with
  | blankLine begins | commentLine begins =>
    exact ⟨fun _ => ⟨begins, h.not_needsNewline begins⟩, fun _ => rfl⟩
  | comment inside crosses comment => exact absurd comment (passes.not_comment crosses)
  | join crosses ends =>
    obtain ⟨b, here, other⟩ := passes.current
    obtain ⟨rest, p, same, -⟩ := crosses.exists_eq
    rw [same] at here
    cases here
    exact other.elim nofun nofun
  | lineBreak inside crosses ends => exact ⟨fun outside => absurd outside inside, fun _ => rfl⟩
  | lineEnd inside outside crosses ends =>
    refine ⟨fun _ => ?_, fun inside => absurd outside inside⟩
    split
    · exact ⟨⟨rfl, outside⟩, rfl⟩
    · rename_i open_
      exact ⟨⟨rfl, outside⟩, eq_false_of_ne_true open_⟩
  | token inside here start found => exact absurd start (passes.not_isTokenStart here)
  | line begins here start indented found => exact absurd start (passes.not_isTokenStart here)

/-- The count of open brackets is right where these tokens are still to come. -/
structure CountsDepth (s : Layout) (after : List (Token TokenKind)) : Prop where
  /-- It is the number of pairs of brackets around the place. -/
  depth : ∀ n, Enclosed n s.tokens.reverse after ↔ n = s.brackets
  /-- No bracket has been closed while it was zero. -/
  balance : openings s.tokens = closings s.tokens + s.brackets
  /-- A break that comes next is passed. -/
  passes : ∀ bytes d, s.cursor.skipBlanks.Crosses bytes d → IsBreak bytes d.rest →
    ∃ t, Step s t ∧ t.cursor = d
  /-- A break inside of brackets is passed like a blank, and any other one ends the line. -/
  breaks : ∀ t, Step s t → PassesBreak s t →
    (¬Enclosed 0 s.tokens.reverse after → t = { s with cursor := t.cursor }) ∧
      (Enclosed 0 s.tokens.reverse after → t.BeginsLine ∧ t.needsNewline = false)

theorem Sound.countsDepth (h : s.Sound text) (nested : Nested (s.tokens.reverse ++ after)) :
    s.CountsDepth after := by
  rw [nested_iff, passAll_append] at nested
  obtain ⟨stack, opened, closed⟩ := Option.bind_eq_some_iff.1 nested
  have count : s.brackets = stack.length := h.brackets.symm.trans (openBrackets_eq opened)
  have depth (n : Nat) : Enclosed n s.tokens.reverse after ↔ n = s.brackets := by
    rw [enclosed_iff, count]
    constructor
    · rintro ⟨stack', opened', -, rfl⟩
      cases opened.symm.trans opened'
      rfl
    · rintro rfl
      exact ⟨stack, opened, closed, rfl⟩
  refine ⟨depth, ?_, fun _ _ => exists_step_of_isBreak, fun t one passes => ?_⟩
  · have counted := openings_of_passAll opened
    rw [openings, closings, List.countP_reverse, List.countP_reverse] at counted
    rw [openings, closings, count]
    exact counted
  · rw [depth, eq_comm]
    exact (h.passesBreak one passes).symm

/-- No bracket is open at the end of a text whose tokens are nested. -/
theorem Sound.outside_of_end (h : s.Sound text) {stop : Pos} (nested : Nested (s.finish stop)) :
    s.brackets = 0 := by
  rw [finish_eq] at nested
  have outside : Enclosed 0 s.tokens.reverse (s.ending stop) := by
    rw [nested_iff, passAll_append] at nested
    obtain ⟨stack, opened, closed⟩ := Option.bind_eq_some_iff.1 nested
    rw [passAll_of_layout fun t added => (of_mem_ending added).1] at closed
    cases closed
    exact enclosed_iff.2 ⟨[], opened, passAll_of_layout fun t added => (of_mem_ending added).1, rfl⟩
  exact (((h.countsDepth nested).depth 0).1 outside).symm

end Layout

/-! ### Scripts and holes -/

/-- The brackets among the tokens of a script that can be read are nested. While the script was read
to tokens the count of open brackets was right everywhere, and at its end none was open. -/
theorem Module.brackets_counted {limits : Limits} {text : String} {m : Module}
    (parsed : ofText limits text = .ok m) :
    ∃ tokens, Script.tokens (utf8 text) = .ok tokens ∧ Nested tokens ∧
      ∀ s, Layout.Visited (utf8 text) s →
        (∃ after, tokens = s.tokens.reverse ++ after ∧ s.CountsDepth after) ∧
          (Layout.step s = .ok none → s.brackets = 0) := by
  obtain ⟨tokens, lexed, parsed⟩ := ok_of_ofText parsed
  have nested := nested_of_ofTokens parsed (tokens_endsOnce lexed)
  refine ⟨tokens, lexed, nested, fun s visited => ?_⟩
  have done := visited.run lexed
  obtain ⟨after, split, -⟩ := Layout.Ahead.run done
  refine ⟨⟨after, split, visited.sound.countsDepth (split ▸ nested)⟩, fun last => ?_⟩
  rw [Layout.run_none last] at done
  cases done
  exact visited.sound.outside_of_end nested

/-- A call whose second line begins inside of its brackets. -/
theorem Module.brackets_counted_call :
    ∃ m tokens, ofText defaultLimits "f(1,\n[2])\n" = .ok m ∧
      Script.tokens (utf8 "f(1,\n[2])\n") = .ok tokens ∧ Nested tokens ∧ openings tokens = 2 := by
  have accepted : ((ofText defaultLimits "f(1,\n[2])\n").toOption.map fun m => m.body.length) =
      some 1 := by
    decide +kernel
  have known : ((Script.tokens (utf8 "f(1,\n[2])\n")).toOption.map openings) = some 2 := by
    decide +kernel
  obtain ⟨m, parsed, -⟩ := ok_of_known accepted
  obtain ⟨tokens, lexed, opened⟩ := ok_of_known known
  obtain ⟨tokens', lexed', nested, -⟩ := brackets_counted parsed
  cases lexed.symm.trans lexed'
  exact ⟨m, tokens, parsed, lexed, nested, opened⟩

/-- The brackets on the line that is read of a hole are nested too, and rightly counted. -/
theorem Module.Holds.brackets_of_firstLine {m : Module} {h : Hole} {source : List (Token TokenKind)}
    {value : Expr} (holds : m.Holds h source value) :
    Nested (firstLine source) ∧
      ∀ s after, Layout.Visited (utf8 (trim h.source)) s →
        firstLine source = s.tokens.reverse ++ after → s.CountsDepth after := by
  obtain ⟨lexed, read, -⟩ := holds
  exact ⟨read.nested, fun s after visited split =>
    visited.sound.countsDepth (split ▸ read.nested)⟩

end ScoreScript.Script
