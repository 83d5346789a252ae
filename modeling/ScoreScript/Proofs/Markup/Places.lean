import ScoreScript.Proofs.Markup.Recursion

/-!
Reading does not depend on where a text stands. From two places with the same bytes the reader makes
the same of them: it fails for the same cause, or it reads the same element and leaves the same
bytes. Main statements: `readElement_places`, `skipMisc_places`.
-/

namespace ScoreScript.Markup

open Cursor

/-- Both fail for the same cause, or both come to something, and to what is related. -/
def Consistent {α : Type} (related : α → α → Prop) : Except Error α → Except Error α → Prop
  | .ok a, .ok a' => related a a'
  | .error e, .error e' => e.cause = e'.cause
  | _, _ => False

/-- The same was read, and the same bytes are left. -/
def SameRead {α : Type} (r r' : α × Cursor) : Prop :=
  r.1 = r'.1 ∧ r.2.rest = r'.2.rest

/-- The same bytes are left. -/
def SameRest (c c' : Cursor) : Prop :=
  c.rest = c'.rest

namespace Consistent

variable {α β : Type} {related : α → α → Prop} {related' : β → β → Prop}
  {result result' : Except Error α}

theorem bind {next next' : α → Except Error β} (first : Consistent related result result')
    (later : ∀ a a', result = .ok a → related a a' → Consistent related' (next a) (next' a')) :
    Consistent related' (result >>= next) (result' >>= next') := by
  cases result with
  | error e =>
    cases result' with
    | error e' => exact first
    | ok a' => exact first.elim
  | ok a =>
    cases result' with
    | error e' => exact first.elim
    | ok a' => exact later a a' rfl first

theorem of_ok {a : α} (h : Consistent related result result') (done : result = .ok a) :
    ∃ a', result' = .ok a' ∧ related a a' := by
  subst done
  cases result' with
  | error e' => exact h.elim
  | ok a' => exact ⟨a', rfl, h⟩

/-- What does not depend on places may come first. -/
theorem later {next next' : α → Except Error β}
    (each : ∀ a, Consistent related' (next a) (next' a)) :
    Consistent related' (result >>= next) (result >>= next') := by
  cases result with
  | error e => rfl
  | ok a => exact each a

theorem map {f f' : α → β} (first : Consistent related result result')
    (each : ∀ a a', related a a' → related' (f a) (f' a')) :
    Consistent related' (result.map f) (result'.map f') := by
  cases result with
  | error e =>
    cases result' with
    | error e' => exact first
    | ok a' => exact first.elim
  | ok a =>
    cases result' with
    | error e' => exact first.elim
    | ok a' => exact each a a' first

theorem ite {choice : Prop} [Decidable choice] {other other' : Except Error α}
    (first : Consistent related result result') (second : Consistent related other other') :
    Consistent related (if choice then result else other)
      (if choice then result' else other') := by
  by_cases choice
  · rwa [if_pos ‹_›, if_pos ‹_›]
  · rwa [if_neg ‹_›, if_neg ‹_›]

end Consistent

section

variable {rest : List UInt8} {p q : Pos}

/-! ### Signs and marks -/

theorem expect_places (char : Char) :
    Consistent SameRest (expect ⟨rest, p⟩ char) (expect ⟨rest, q⟩ char) := by
  unfold expect consume?
  by_cases here : rest.head? = some char.toUInt8
  · simp only [current, here, if_true]
    rfl
  · simp only [current, here, if_false]
    rfl

/-- Up to a word the same number of bytes is passed. -/
theorem skipPast_places (word : String) :
    Consistent (fun after after' => ∃ count, after = (⟨rest, p⟩ : Cursor).advanceBy count ∧
      after' = (⟨rest, q⟩ : Cursor).advanceBy count)
      (skipPast ⟨rest, p⟩ word) (skipPast ⟨rest, q⟩ word) := by
  unfold skipPast Cursor.skipPast
  cases distance? (word.toList.map Char.toUInt8) 0 rest with
  | none => rfl
  | some count => exact ⟨count + word.length, rfl, rfl⟩

theorem skipMisc_step (c : Cursor) :
    skipMisc c =
      match miscAt c.skipWhitespace with
      | none => .ok c.skipWhitespace
      | some (extra, word) => skipRegion c.skipWhitespace extra word >>= skipMisc := by
  rw [skipMisc.eq_def]
  split
  · rename_i none
    simp only [none]
  · rename_i mark
    simp only [mark]
    split
    · rename_i failed
      rw [failed]
      rfl
    · rename_i passed
      rw [passed]
      rfl

theorem skipMisc_places : Consistent SameRest (skipMisc ⟨rest, p⟩) (skipMisc ⟨rest, q⟩) := by
  induction length : rest.length using Nat.strongRecOn generalizing rest p q with
  | _ n ih =>
    subst length
    rw [skipMisc_step, skipMisc_step]
    have same : miscAt (⟨rest, p⟩ : Cursor).skipWhitespace =
        miscAt (⟨rest, q⟩ : Cursor).skipWhitespace := rfl
    rw [← same]
    cases mark : miscAt (⟨rest, p⟩ : Cursor).skipWhitespace with
    | none => rfl
    | some found =>
      obtain ⟨extra, word⟩ := found
      refine (skipPast_places word).bind ?_
      rintro after after' passed ⟨count, rfl, rfl⟩
      have shorter := length_skipRegion_lt (length_pos_of_miscAt mark) passed
      exact ih _ (Nat.lt_of_lt_of_le shorter (length_skipWhile_le _ _)) rfl

/-! ### Names, attributes and tags -/

theorem readName_places : Consistent SameRead (readName ⟨rest, p⟩) (readName ⟨rest, q⟩) := by
  unfold readName
  by_cases start : rest.head?.any isNameStart
  · simp only [current, start, if_true]
    rw [upTo_skipWhile, upTo_skipWhile]
    cases textOf (rest.takeWhile isNameByte)
    · rfl
    · exact ⟨rfl, rfl⟩
  · simp only [current, start]
    rfl

theorem readValue_places : Consistent SameRead (readValue ⟨rest, p⟩) (readValue ⟨rest, q⟩) := by
  cases rest with
  | nil => rfl
  | cons quote rest =>
    by_cases isQuote : quote = 0x22 ∨ quote = 0x27
    · simp only [readValue, current, List.head?_cons, if_pos isQuote, advance_cons, upTo_skipWhile]
      refine Consistent.ite rfl ?_
      refine .later fun raw => .later fun value => ?_
      exact ⟨rfl, rfl⟩
    · simp only [readValue, current, List.head?_cons, if_neg isQuote]
      rfl

theorem readAttribute_places :
    Consistent SameRead (readAttribute ⟨rest, p⟩) (readAttribute ⟨rest, q⟩) := by
  unfold readAttribute
  refine readName_places.bind ?_
  rintro ⟨name, rest, p⟩ ⟨_, _, q⟩ - ⟨rfl, rfl⟩
  refine (expect_places '=').bind ?_
  rintro ⟨rest, p⟩ ⟨_, q⟩ - ⟨⟩
  refine readValue_places.bind ?_
  rintro ⟨value, rest, p⟩ ⟨_, _, q⟩ - ⟨rfl, rfl⟩
  exact ⟨rfl, rfl⟩

theorem isEnd_iff_look {c : Cursor} : c.isEnd = true ↔ c.look = none := by
  rw [Cursor.isEnd, look, current, List.isEmpty_iff, Option.map_eq_none_iff,
    List.head?_eq_none_iff]

theorem readAttributes_step (before : Assoc String) (c : Cursor) :
    readAttributes before c =
      if c.skipWhitespace.look = some '/' ∨ c.skipWhitespace.look = some '>' then
        .ok (before, c.skipWhitespace)
      else if c.skipWhitespace.isEnd then
        .error (.point (.grammar (.markup .openTag)) c.skipWhitespace.pos)
      else (do
        let (entry, after) ← readAttribute c.skipWhitespace
        if before.contains entry.1 then
          .error (.point (.grammar (.markup .repeatedAttribute)) after.pos)
        else readAttributes (before ++ [entry]) after) := by
  by_cases last : c.skipWhitespace.look = some '/' ∨ c.skipWhitespace.look = some '>'
  · rw [if_pos last, readAttributes_end last]
  · rw [if_neg last, readAttributes.eq_def]
    split
    · exact absurd (.inl ‹_›) last
    · exact absurd (.inr ‹_›) last
    · rename_i none
      rw [if_pos (isEnd_iff_look.2 none)]
      rfl
    · rename_i here
      rw [if_neg (by rw [isEnd_iff_look, here]; exact Option.some_ne_none _)]
      split
      · rename_i failed
        rw [failed]
        rfl
      · rename_i read
        simp only [read]
        rfl

theorem readAttributes_places {before : Assoc String} :
    Consistent SameRead (readAttributes before ⟨rest, p⟩) (readAttributes before ⟨rest, q⟩) := by
  induction length : rest.length using Nat.strongRecOn generalizing before rest p q with
  | _ n ih =>
    subst length
    rw [readAttributes_step, readAttributes_step]
    refine .ite ⟨rfl, rfl⟩ (.ite rfl (readAttribute_places.bind ?_))
    rintro ⟨entry, after, p'⟩ ⟨_, _, q'⟩ read ⟨rfl, rfl⟩
    have shorter : after.length < rest.length :=
      Nat.lt_of_lt_of_le (length_readAttribute_lt read) (length_skipWhile_le _ _)
    exact .ite rfl (ih _ shorter rfl)

theorem startTag_places : Consistent SameRead (startTag ⟨rest, p⟩) (startTag ⟨rest, q⟩) := by
  unfold startTag
  refine (expect_places '<').bind ?_
  rintro ⟨rest, p⟩ ⟨_, q⟩ - ⟨⟩
  refine .ite rfl (readName_places.bind ?_)
  rintro ⟨tag, rest, p⟩ ⟨_, _, q⟩ - ⟨rfl, rfl⟩
  refine readAttributes_places.bind ?_
  rintro ⟨attributes, rest, p⟩ ⟨_, _, q⟩ - ⟨rfl, rfl⟩
  have close (empty : Bool) {rest : List UInt8} {p q : Pos} :
      Consistent SameRead
        (expect ⟨rest, p⟩ '>' >>= fun c =>
          pure (((⟨tag, attributes, [], ""⟩ : OpenElement), empty), c))
        (expect ⟨rest, q⟩ '>' >>= fun c =>
          pure (((⟨tag, attributes, [], ""⟩ : OpenElement), empty), c)) := by
    refine (expect_places '>').bind ?_
    rintro ⟨rest, p⟩ ⟨_, q⟩ - ⟨⟩
    exact ⟨rfl, rfl⟩
  dsimp only [skipOptional]
  by_cases slash : rest.head? = some 0x2F
  · simp only [consume?, current, slash, if_true]
    exact close true
  · simp only [consume?, current, slash, if_false]
    exact close false

theorem closingTag_places {tag : String} :
    Consistent SameRest (closingTag tag ⟨rest, p⟩) (closingTag tag ⟨rest, q⟩) := by
  unfold closingTag
  refine readName_places.bind ?_
  rintro ⟨name, rest, p⟩ ⟨_, _, q⟩ - ⟨rfl, rfl⟩
  exact .ite (expect_places '>') rfl

/-! ### Elements -/

theorem piece_places {mark : ContentMark} :
    Consistent SameRead (piece mark ⟨rest, p⟩) (piece mark ⟨rest, q⟩) := by
  have plain : Consistent SameRead (plainText ⟨rest, p⟩) (plainText ⟨rest, q⟩) := by
    unfold plainText skipWhile
    rw [advance, advance, advanceBy_advanceBy, advanceBy_advanceBy]
    dsimp only
    rw [upTo_advanceBy, upTo_advanceBy]
    exact .later fun raw => .later fun text => ⟨rfl, rfl⟩
  cases mark with
  | comment =>
    refine (skipPast_places "-->").map ?_
    rintro after after' ⟨count, rfl, rfl⟩
    exact ⟨rfl, rfl⟩
  | instruction =>
    refine (skipPast_places "?>").map ?_
    rintro after after' ⟨count, rfl, rfl⟩
    exact ⟨rfl, rfl⟩
  | cdata =>
    refine (skipPast_places "]]>").bind ?_
    rintro after after' - ⟨count, rfl, rfl⟩
    have inner (p : Pos) : ((⟨rest, p⟩ : Cursor).advanceBy 9).upTo
        ((⟨rest.drop 9, p.after (rest.take 9)⟩ : Cursor).advanceBy count) =
          (rest.drop 9).take count := upTo_advanceBy _ count
    dsimp only
    rw [inner p, inner q]
    exact .later fun text => ⟨rfl, rfl⟩
  | _ => exact plain

/-- From two places an element is read alike if that is so of what is inside it. -/
theorem element_places {depth : Nat}
    (within : ∀ {next tag p q}, next.length < rest.length →
      Consistent SameRead (body depth tag ⟨next, p⟩) (body depth tag ⟨next, q⟩)) :
    Consistent SameRead (element depth ⟨rest, p⟩) (element depth ⟨rest, q⟩) := by
  rw [element_eq, element_eq]
  refine .ite rfl (startTag_places.bind ?_)
  rintro ⟨⟨e, empty⟩, next, p'⟩ ⟨_, _, q'⟩ opened ⟨rfl, rfl⟩
  refine .ite ⟨rfl, rfl⟩ ((within (length_startTag_lt opened)).bind ?_)
  rintro ⟨inner, after, p'⟩ ⟨_, _, q'⟩ - ⟨rfl, rfl⟩
  exact ⟨rfl, rfl⟩

theorem body_places {depth : Nat} {tag : String} :
    Consistent SameRead (body depth tag ⟨rest, p⟩) (body depth tag ⟨rest, q⟩) := by
  induction length : rest.length using Nat.strongRecOn generalizing depth tag rest p q with
  | _ n ih =>
    subst length
    rw [body_eq, body_eq]
    by_cases last : (⟨rest, p⟩ : Cursor).isEnd = true
    · rw [if_pos last, if_pos (show (⟨rest, q⟩ : Cursor).isEnd = true from last)]
      rfl
    · have pos := length_pos_of_not_isEnd last
      rw [if_neg last, if_neg (show ¬(⟨rest, q⟩ : Cursor).isEnd = true from last)]
      have same : ContentMark.of ⟨rest, p⟩ = ContentMark.of ⟨rest, q⟩ := rfl
      rw [← same]
      split
      · refine closingTag_places.bind ?_
        rintro ⟨next, p'⟩ ⟨_, q'⟩ - ⟨⟩
        exact ⟨rfl, rfl⟩
      · refine (element_places fun shorter => ih _ shorter rfl).bind ?_
        rintro ⟨child, next, p'⟩ ⟨_, _, q'⟩ read ⟨rfl, rfl⟩
        refine (ih _ (length_element_lt read) rfl).bind ?_
        rintro ⟨inner, after, p'⟩ ⟨_, _, q'⟩ - ⟨rfl, rfl⟩
        exact ⟨rfl, rfl⟩
      · refine piece_places.bind ?_
        rintro ⟨text, next, p'⟩ ⟨_, _, q'⟩ read ⟨rfl, rfl⟩
        refine (ih _ (length_piece_lt pos read) rfl).bind ?_
        rintro ⟨inner, after, p'⟩ ⟨_, _, q'⟩ - ⟨rfl, rfl⟩
        exact ⟨rfl, rfl⟩

/-- From two places the same element is read, or reading fails for the same cause. -/
theorem readElement_places :
    Consistent SameRead (readElement ⟨rest, p⟩) (readElement ⟨rest, q⟩) := by
  rw [readElement_eq, readElement_eq]
  exact element_places fun _ => body_places

end

end ScoreScript.Markup
