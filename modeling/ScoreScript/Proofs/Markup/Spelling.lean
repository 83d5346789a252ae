import Mathlib.Data.List.TakeWhile
import ScoreScript.Proofs.Markup.Recursion
import ScoreScript.Proofs.Markup.RoundTrip

/-!
What the reader accepts. An element that is read was written: its tags name the same element, no
attribute comes twice, and what stands between the tags are children and pieces of text. Main
statement: `readElement_spells`.
-/

namespace ScoreScript.Markup

open Element Cursor

/-! ### The written forms -/

/-- White space, or nothing. -/
def IsBlank (bytes : List UInt8) : Prop :=
  ∀ b ∈ bytes, isWhitespace b = true

/-- Two marks and what stands between them, where the second does not occur. -/
def IsRegion (opening closing : String) (between bytes : List UInt8) : Prop :=
  bytes = utf8 opening ++ (between ++ utf8 closing) ∧ ¬utf8 closing <:+: between

/-- A name, an equals sign and a value in quotes, with its references replaced. -/
inductive SpellsAttribute : String × String → List UInt8 → Prop where
  | mk {name value raw : String} {before after : List UInt8} {quote : UInt8} (named : IsName name)
    (blank : IsBlank before) (blank' : IsBlank after) (isQuote : quote = 0x22 ∨ quote = 0x27)
    (closes : quote ∉ utf8 raw) (decoded : Entity.decode raw = .ok value) :
    SpellsAttribute (name, value)
      (utf8 name ++ (before ++ 0x3D :: (after ++ quote :: (utf8 raw ++ [quote]))))

/-- Attributes, with white space around them. -/
inductive SpellsAttributes : Assoc String → List UInt8 → Prop where
  | nil {bytes : List UInt8} (blank : IsBlank bytes) : SpellsAttributes [] bytes
  | cons {entry : String × String} {attributes : Assoc String} {before bytes rest : List UInt8}
    (blank : IsBlank before) (first : SpellsAttribute entry bytes)
    (later : SpellsAttributes attributes rest) :
    SpellsAttributes (entry :: attributes) (before ++ (bytes ++ rest))

/-- A piece of the text of an element. -/
inductive SpellsPiece : String → List UInt8 → Prop where
  | comment {between bytes : List UInt8} (region : IsRegion "<!--" "-->" between bytes) :
    SpellsPiece "" bytes
  | instruction {between bytes : List UInt8} (region : IsRegion "<?" "?>" between bytes) :
    SpellsPiece "" bytes
  | cdata {text : String} {bytes : List UInt8}
    (region : IsRegion "<![CDATA[" "]]>" (utf8 text) bytes) : SpellsPiece text bytes
  | plain {raw text : String} (noTag : 0x3C ∉ utf8 raw) (decoded : Entity.decode raw = .ok text) :
    SpellsPiece text (utf8 raw)

mutual

/-- An element: an empty tag, or two tags of the same name. Text that is all white space is none. -/
inductive Spells : Element → List UInt8 → Prop where
  | empty {tag : String} {attributes : Assoc String} {bytes : List UInt8}
    (named : WellNamed { tag, attributes }) (start : SpellsAttributes attributes bytes) :
    Spells { tag, attributes } (0x3C :: (utf8 tag ++ (bytes ++ [0x2F, 0x3E])))
  | closed {tag : String} {attributes : Assoc String} {children : List Element} {text : String}
    {bytes between blank : List UInt8} (named : WellNamed { tag, attributes })
    (start : SpellsAttributes attributes bytes) (inner : SpellsBody children text between)
    (space : IsBlank blank) :
    Spells { tag, attributes, children, text := if isBlankText text then none else some text }
      (0x3C :: (utf8 tag ++ (bytes ++ 0x3E :: (between ++
        0x3C :: 0x2F :: (utf8 tag ++ (blank ++ [0x3E]))))))

/-- Children, and pieces of text between them. -/
inductive SpellsBody : List Element → String → List UInt8 → Prop where
  | nil : SpellsBody [] "" []
  | child {e : Element} {children : List Element} {text : String} {bytes rest : List UInt8}
    (first : Spells e bytes) (later : SpellsBody children text rest) :
    SpellsBody (e :: children) text (bytes ++ rest)
  | piece {children : List Element} {text more : String} {bytes rest : List UInt8}
    (first : SpellsPiece text bytes) (later : SpellsBody children more rest) :
    SpellsBody children (text ++ more) (bytes ++ rest)

end

/-! ### What was passed -/

theorem exists_skipWhitespace (c : Cursor) :
    ∃ blank, IsBlank blank ∧ c.rest = blank ++ c.skipWhitespace.rest :=
  ⟨c.rest.takeWhile isWhitespace, fun _ => List.mem_takeWhile_imp, rest_skipWhile c _⟩

theorem textOf_eq_ok {bytes : List UInt8} {text : String} (read : textOf bytes = .ok text) :
    utf8 text = bytes := by
  unfold textOf at read
  split at read
  · rename_i decoded
    cases read
    exact utf8_of_ofUtf8? decoded
  · cases read

theorem rest_of_expect {c after : Cursor} {char : Char} (passed : expect c char = .ok after) :
    c.rest = char.toUInt8 :: after.rest := by
  unfold expect at passed
  split at passed
  · rename_i found
    cases passed
    exact rest_of_consume? found
  · cases passed

theorem rest_of_readName {c after : Cursor} {name : String}
    (read : readName c = .ok (name, after)) : IsName name ∧ c.rest = utf8 name ++ after.rest := by
  unfold readName at read
  split at read
  · rename_i start
    obtain ⟨text, decoded, ⟨⟩⟩ := ok_of_map read
    have bytes : utf8 name = c.rest.takeWhile isNameByte := by
      rw [textOf_eq_ok decoded, upTo_skipWhile]
    have first : (utf8 name).head?.any isNameStart = true := by
      obtain ⟨b, here, starts⟩ := (Option.any_eq_true _ _).1 start
      obtain ⟨rest, split⟩ := List.head?_eq_some_iff.1 here
      have named : isNameByte b = true := by simp only [isNameByte, starts, Bool.true_or]
      rw [bytes, split, List.takeWhile_cons, if_pos named]
      exact starts
    refine ⟨⟨first, fun b member => ?_⟩, ?_⟩
    · rw [bytes] at member
      exact List.mem_takeWhile_imp member
    · rw [bytes]
      exact rest_skipWhile c _
  · cases read

theorem rest_of_readValue {c after : Cursor} {value : String}
    (read : readValue c = .ok (value, after)) :
    ∃ quote raw, (quote = 0x22 ∨ quote = 0x27) ∧ quote ∉ utf8 raw ∧
      Entity.decode raw = .ok value ∧ c.rest = quote :: (utf8 raw ++ quote :: after.rest) := by
  unfold readValue at read
  split at read
  · rename_i quote here
    split at read
    · rename_i isQuote
      dsimp only at read
      split at read
      · cases read
      · rename_i more
        obtain ⟨raw, decoded, read⟩ := ok_of_bind read
        obtain ⟨value, replaced, ⟨⟩⟩ := ok_of_bind read
        have bytes : utf8 raw = c.advance.rest.takeWhile (· != quote) := by
          rw [textOf_eq_ok decoded, upTo_skipWhile]
        have opened : c.rest = quote :: c.advance.rest := by
          obtain ⟨rest, split⟩ := List.head?_eq_some_iff.1 here
          rw [advance, rest_advanceBy, split]
          rfl
        obtain ⟨b, rest, split, closed⟩ := exists_of_not_isEnd more
        have isSame : b = quote := by
          have stop := stops_skipWhile c.advance (· != quote) b (by rw [split]; rfl)
          exact bne_eq_false_iff_eq.1 stop
        have passed := rest_skipWhile c.advance (· != quote)
        refine ⟨quote, raw, isQuote, fun member => ?_, replaced, ?_⟩
        · rw [bytes] at member
          exact absurd rfl (bne_iff_ne.1 (List.mem_takeWhile_imp (p := (· != quote)) member))
        · rw [opened, passed, split, ← bytes, isSame, closed]
    · cases read
  · cases read

theorem spells_of_readAttribute {c after : Cursor} {entry : String × String}
    (read : readAttribute c = .ok (entry, after)) :
    ∃ bytes, SpellsAttribute entry bytes ∧ c.rest = bytes ++ after.rest := by
  obtain ⟨⟨name, named⟩, first, read⟩ := ok_of_bind read
  obtain ⟨equals, second, read⟩ := ok_of_bind read
  obtain ⟨⟨value, behind⟩, third, ⟨⟩⟩ := ok_of_bind read
  obtain ⟨isName, start⟩ := rest_of_readName first
  obtain ⟨before, blank, space⟩ := exists_skipWhitespace named
  obtain ⟨between, blank', space'⟩ := exists_skipWhitespace equals
  obtain ⟨quote, raw, isQuote, closes, decoded, last⟩ := rest_of_readValue third
  refine ⟨_, .mk isName blank blank' isQuote closes decoded, ?_⟩
  have sign : '='.toUInt8 = 0x3D := rfl
  rw [start, space, rest_of_expect second, sign, space', last]
  simp only [List.append_assoc, List.cons_append, List.nil_append]

/-- Attributes are read after others; all of them are different. -/
theorem spells_of_readAttributes {before entries : Assoc String} {c after : Cursor}
    (read : readAttributes before c = .ok (entries, after))
    (distinct : (before.map (·.1)).Nodup) :
    (entries.map (·.1)).Nodup ∧
    ∃ attributes bytes, entries = before ++ attributes ∧ SpellsAttributes attributes bytes ∧
      (∀ entry ∈ attributes, IsName entry.1) ∧ c.rest = bytes ++ after.rest := by
  fun_induction readAttributes before c with
  | case1 before c slash | case2 before c slash =>
    cases read
    obtain ⟨blank, isBlank, space⟩ := exists_skipWhitespace c
    exact ⟨distinct, [], blank, (List.append_nil _).symm, .nil isBlank, List.forall_mem_nil _,
      space⟩
  | case6 before c char _ _ _ name value next found _ fresh ih =>
    obtain ⟨blank, isBlank, space⟩ := exists_skipWhitespace c
    obtain ⟨first, spells, start⟩ := spells_of_readAttribute found
    have unused : name ∉ before.map (·.1) :=
      Assoc.contains_eq_false_iff.1 (Bool.eq_false_iff.2 fresh)
    have distinct' : ((before ++ [(name, value)]).map (·.1)).Nodup := by
      rw [List.map_append]
      exact List.nodup_append_comm.1 (List.nodup_cons.2 ⟨unused, distinct⟩)
    obtain ⟨different, attributes, bytes, rfl, spelled, named, rest⟩ := ih read distinct'
    refine ⟨different, (name, value) :: attributes, _, ?_, .cons isBlank spells spelled, ?_, ?_⟩
    · rw [List.append_assoc, List.singleton_append]
    · cases spells with
      | mk isName => exact List.forall_mem_cons.2 ⟨isName, named⟩
    · rw [space, start, rest, List.append_assoc, List.append_assoc]
  | _ => cases read

theorem spells_of_startTag {c after : Cursor} {e : OpenElement} {empty : Bool}
    (read : startTag c = .ok ((e, empty), after)) :
    WellNamed { tag := e.tag, attributes := e.attributes } ∧ e.children = [] ∧ e.text = "" ∧
    ∃ bytes, SpellsAttributes e.attributes bytes ∧
      c.rest = 0x3C :: (utf8 e.tag ++ (bytes ++
        (if empty then [0x2F, 0x3E] else [0x3E]) ++ after.rest)) := by
  obtain ⟨inner, first, read⟩ := ok_of_bind read
  dsimp only at read
  split at read
  · cases read
  · obtain ⟨-, -, read⟩ := ok_of_bind read
    obtain ⟨⟨tag, named⟩, second, read⟩ := ok_of_bind read
    obtain ⟨⟨attributes, last⟩, third, read⟩ := ok_of_bind read
    obtain ⟨behind, fourth, ⟨⟩⟩ := ok_of_bind read
    obtain ⟨isName, tagged⟩ := rest_of_readName second
    obtain ⟨different, attributes, bytes, rfl, spelled, names, rest⟩ :=
      spells_of_readAttributes third List.nodup_nil
    have opened : '<'.toUInt8 = 0x3C := rfl
    have closed : '>'.toUInt8 = 0x3E := rfl
    refine ⟨⟨isName, names, different⟩, rfl, rfl, bytes, spelled, ?_⟩
    rw [rest_of_expect first, opened, tagged, rest, rest_skipOptional last 0x2F,
      rest_of_expect fourth, closed]
    cases (last.consume? 0x2F).isSome <;> simp only [List.append_assoc] <;> rfl

theorem rest_of_closingTag {tag : String} {c after : Cursor}
    (read : closingTag tag c = .ok after) :
    ∃ blank, IsBlank blank ∧ c.rest = utf8 tag ++ (blank ++ 0x3E :: after.rest) := by
  obtain ⟨⟨name, named⟩, first, read⟩ := ok_of_bind read
  obtain ⟨-, start⟩ := rest_of_readName first
  obtain ⟨blank, isBlank, space⟩ := exists_skipWhitespace named
  dsimp only at read
  split at read
  · rename_i same
    have sign : '>'.toUInt8 = 0x3E := rfl
    refine ⟨blank, isBlank, ?_⟩
    rw [start, same, space, rest_of_expect read, sign]
  · cases read

/-! ### Pieces of text -/

/-- What is passed up to a word, and the word. -/
theorem exists_of_skipPast {d after : Cursor} {word : String}
    (ascii : utf8 word = word.toList.map Char.toUInt8) (some_word : utf8 word ≠ [])
    (passed : skipPast d word = .ok after) :
    ∃ between, d.upTo after = between ++ utf8 word ∧ ¬utf8 word <:+: between ∧
      d.rest = between ++ (utf8 word ++ after.rest) := by
  unfold skipPast Cursor.skipPast at passed
  split at passed
  · rename_i stop found
    cases passed
    split at found
    · rename_i count here
      cases found
      rw [← ascii] at here
      obtain ⟨before, total, here, first⟩ := (distance?_eq_some_iff some_word).1 here
      rw [Nat.zero_add] at total
      subst total
      have bytes : (utf8 word).length = word.length := by
        rw [ascii, List.length_map, String.length_toList]
      have next := List.prefix_iff_eq_append.1 here
      rw [List.drop_drop, bytes] at next
      refine ⟨d.rest.take count, ?_, not_infix_of_first some_word first, ?_⟩
      · rw [upTo_advanceBy, List.take_add, ← bytes, ← List.prefix_iff_eq_take.1 here]
      · rw [rest_advanceBy, next, List.take_append_drop]
    · cases found
  · cases passed

/-- How what stands at a place inside an element begins. -/
def ContentMark.opening : ContentMark → String
  | .closingTag => "</"
  | .comment => "<!--"
  | .cdata => "<![CDATA["
  | .instruction => "<?"
  | .child => "<"
  | .text => ""

theorem startsWith_opening (c : Cursor) : c.startsWith (ContentMark.of c).opening = true := by
  unfold ContentMark.of
  split
  · assumption
  · split
    · assumption
    · split
      · assumption
      · split
        · assumption
        · split
          · assumption
          · rfl

theorem startsWith_of_text {c : Cursor} (mark : ContentMark.of c = .text) :
    c.startsWith "<" = false := by
  by_contra tag
  rw [Bool.not_eq_false] at tag
  simp only [ContentMark.of, tag, if_true] at mark
  split at mark
  · cases mark
  · split at mark
    · cases mark
    · split at mark
      · cases mark
      · split at mark <;> cases mark

section

variable {c after : Cursor} {text : String}

theorem region_of_skipRegion {mark : ContentMark} (here : ContentMark.of c = mark) {extra : Nat}
    {closing : String} (length : mark.opening.length = extra + 1)
    (ascii : utf8 mark.opening = mark.opening.toList.map Char.toUInt8)
    (ascii' : utf8 closing = closing.toList.map Char.toUInt8) (some_word : utf8 closing ≠ [])
    (passed : skipPast (c.advanceBy (extra + 1)) closing = .ok after) :
    ∃ between bytes, (c.advanceBy (extra + 1)).upTo after = between ++ utf8 closing ∧
      IsRegion mark.opening closing between bytes ∧ c.rest = bytes ++ after.rest := by
  subst here
  obtain ⟨between, inner, fresh, rest⟩ := exists_of_skipPast ascii' some_word passed
  have split := rest_of_startsWith (startsWith_opening c)
  rw [length, ← ascii, rest] at split
  refine ⟨between, _, inner, ⟨rfl, fresh⟩, ?_⟩
  rw [split, List.append_assoc, List.append_assoc]

theorem spells_of_plainText (mark : ContentMark.of c = .text) (more : ¬c.isEnd = true)
    (read : plainText c = .ok (text, after)) :
    ∃ bytes, SpellsPiece text bytes ∧ c.rest = bytes ++ after.rest := by
  obtain ⟨raw, decoded, read⟩ := ok_of_bind read
  obtain ⟨text, replaced, ⟨⟩⟩ := ok_of_bind read
  obtain ⟨b, rest, split, next⟩ := exists_of_not_isEnd more
  have noTag : b ≠ 0x3C := by
    rintro rfl
    have tag := startsWith_of_text mark
    rw [startsWith, split] at tag
    cases tag
  have passed : c.upTo (c.advance.skipWhile (· != 0x3C)) =
      b :: rest.takeWhile (· != 0x3C) := by
    rw [skipWhile, advance, advanceBy_advanceBy, upTo_advanceBy, ← advance, next, split,
      Nat.add_comm, List.take_succ_cons, ← List.prefix_iff_eq_take.1 (List.takeWhile_prefix _)]
  have bytes := textOf_eq_ok decoded
  rw [passed] at bytes
  refine ⟨utf8 raw, .plain (fun member => ?_) replaced, ?_⟩
  · rw [bytes] at member
    rcases List.mem_cons.1 member with same | inner
    · exact noTag same.symm
    · exact absurd rfl (bne_iff_ne.1 (List.mem_takeWhile_imp (p := (· != 0x3C)) inner))
  · have onward := rest_skipWhile c.advance (· != 0x3C)
    rw [next] at onward
    rw [bytes, split, List.cons_append, ← onward]

theorem spells_of_piece (more : ¬c.isEnd = true)
    (inner : ContentMark.of c ≠ .closingTag ∧ ContentMark.of c ≠ .child)
    (read : piece (ContentMark.of c) c = .ok (text, after)) :
    ∃ bytes, SpellsPiece text bytes ∧ c.rest = bytes ++ after.rest := by
  cases mark : ContentMark.of c with
  | closingTag => exact absurd mark inner.1
  | child => exact absurd mark inner.2
  | comment =>
    rw [mark] at read
    obtain ⟨behind, passed, ⟨⟩⟩ := ok_of_map read
    obtain ⟨between, bytes, -, region, rest⟩ :=
      region_of_skipRegion mark rfl rfl rfl (by decide) passed
    exact ⟨bytes, .comment region, rest⟩
  | instruction =>
    rw [mark] at read
    obtain ⟨behind, passed, ⟨⟩⟩ := ok_of_map read
    obtain ⟨between, bytes, -, region, rest⟩ :=
      region_of_skipRegion mark rfl rfl rfl (by decide) passed
    exact ⟨bytes, .instruction region, rest⟩
  | cdata =>
    rw [mark] at read
    obtain ⟨behind, passed, read⟩ := ok_of_bind read
    obtain ⟨text, decoded, ⟨⟩⟩ := ok_of_bind read
    have length : ContentMark.cdata.opening.length = 8 + 1 := rfl
    obtain ⟨between, bytes, raw, region, rest⟩ :=
      region_of_skipRegion mark length rfl rfl (by decide) passed
    have closing : (utf8 "]]>").length = 3 := rfl
    rw [raw, List.length_append, closing, Nat.add_sub_cancel, List.take_left] at decoded
    rw [← textOf_eq_ok decoded] at region
    exact ⟨bytes, .cdata region, rest⟩
  | text =>
    rw [mark] at read
    exact spells_of_plainText mark more read

end

/-! ### Elements -/

/-- What is inside an element is spelled, and its closing tag comes next. -/
def SpellsInner (tag : String) (inner : List Element × String) (c after : Cursor) : Prop :=
  ∃ between blank, SpellsBody inner.1 inner.2 between ∧ IsBlank blank ∧
    c.rest = between ++ 0x3C :: 0x2F :: (utf8 tag ++ (blank ++ 0x3E :: after.rest))

/-- An element is spelled as it is read if that is so of what is inside it. -/
theorem spells_of_element {depth : Nat} {c after : Cursor} {e : Element}
    (within : ∀ {tag next inner}, next.rest.length < c.rest.length →
      body depth tag next = .ok (inner, after) → SpellsInner tag inner next after)
    (read : element depth c = .ok (e, after)) :
    ∃ bytes, Spells e bytes ∧ c.rest = bytes ++ after.rest := by
  rw [element_eq] at read
  split at read
  · cases read
  · obtain ⟨⟨⟨⟨tag, attributes, children, text⟩, empty⟩, next⟩, opened, read⟩ := ok_of_bind read
    obtain ⟨named, rfl, rfl, bytes, start, rest⟩ := spells_of_startTag opened
    cases empty with
    | true =>
      cases read
      refine ⟨_, .empty named start, ?_⟩
      rw [rest]
      simp only [if_true, List.append_assoc, List.cons_append, List.nil_append]
    | false =>
      obtain ⟨⟨inner, behind⟩, found, ⟨⟩⟩ := ok_of_bind read
      obtain ⟨between, blank, spelled, space, rest'⟩ := within (length_startTag_lt opened) found
      have finished : (OpenElement.fill ⟨tag, attributes, [], ""⟩ inner).close =
          { tag, attributes, children := inner.1,
            text := if isBlankText inner.2 then none else some inner.2 } := by
        simp only [OpenElement.fill, OpenElement.close, List.append_nil, List.reverse_reverse,
          String.empty_append]
      rw [finished]
      refine ⟨_, .closed named start spelled space, ?_⟩
      rw [rest, rest']
      simp only [Bool.false_eq_true, if_false, List.append_assoc, List.cons_append,
        List.nil_append]

/-- So is what is inside an element. -/
theorem spells_of_body {depth : Nat} {tag : String} {c after : Cursor}
    {inner : List Element × String} (read : body depth tag c = .ok (inner, after)) :
    SpellsInner tag inner c after := by
  induction length : c.rest.length using Nat.strongRecOn
    generalizing depth tag c inner after with
  | _ n ih =>
    subst length
    rw [body_eq] at read
    split at read
    · cases read
    · rename_i more
      have pos := Cursor.length_pos_of_not_isEnd more
      split at read
      · rename_i mark
        obtain ⟨next, closed, ⟨⟩⟩ := ok_of_bind read
        obtain ⟨blank, space, rest⟩ := rest_of_closingTag closed
        have start := rest_of_startsWith (startsWith_opening c)
        refine ⟨[], blank, .nil, space, ?_⟩
        rw [mark] at start
        rw [start]
        exact congrArg _ rest
      · obtain ⟨⟨child, next⟩, first, read⟩ := ok_of_bind read
        obtain ⟨⟨others, behind⟩, later, ⟨⟩⟩ := ok_of_bind read
        obtain ⟨bytes, spelled, rest⟩ :=
          spells_of_element (fun shorter found => ih _ shorter found rfl) first
        obtain ⟨between, blank, spelled', space, rest'⟩ := ih _ (length_element_lt first) later rfl
        refine ⟨bytes ++ between, blank, .child spelled spelled', space, ?_⟩
        rw [rest, rest', List.append_assoc]
      · rename_i noClosing noChild
        obtain ⟨⟨text, next⟩, first, read⟩ := ok_of_bind read
        obtain ⟨⟨others, behind⟩, later, ⟨⟩⟩ := ok_of_bind read
        obtain ⟨bytes, spelled, rest⟩ := spells_of_piece more ⟨noClosing, noChild⟩ first
        obtain ⟨between, blank, spelled', space, rest'⟩ :=
          ih _ (length_piece_lt pos first) later rfl
        refine ⟨bytes ++ between, blank, .piece spelled spelled', space, ?_⟩
        rw [rest, rest', List.append_assoc]

mutual

/-- What is spelled has tags of names, and no attribute twice, in the element and inside it. -/
theorem Spells.wellNamed : {e : Element} → {bytes : List UInt8} → Spells e bytes →
    e.Everywhere WellNamed
  | _, _, .empty named _ => everywhere_iff.2 ⟨⟨named.tag, named.names, named.distinct⟩, nofun⟩
  | _, _, .closed named _ inner _ =>
    everywhere_iff.2 ⟨⟨named.tag, named.names, named.distinct⟩, inner.wellNamed⟩

theorem SpellsBody.wellNamed : {children : List Element} → {text : String} →
    {bytes : List UInt8} → SpellsBody children text bytes → ∀ e ∈ children, e.Everywhere WellNamed
  | _, _, _, .nil => nofun
  | _, _, _, .child first later => List.forall_mem_cons.2 ⟨first.wellNamed, later.wellNamed⟩
  | _, _, _, .piece _ later => later.wellNamed

end

/-- At any place, the reader with a stack reads what the direct one reads, or fails with the same
error. The element it reads is spelled there: all of its elements end with a tag of the name with
which they begin, and no attribute comes twice in one of them. -/
theorem readElement_spells (c : Cursor) :
    readElement c = element 1 c ∧
    ∀ e after, readElement c = .ok (e, after) →
      e.Everywhere WellNamed ∧ ∃ bytes, Spells e bytes ∧ c.rest = bytes ++ after.rest := by
  refine ⟨readElement_eq c, fun e after read => ?_⟩
  rw [readElement_eq] at read
  obtain ⟨bytes, spelled, rest⟩ := spells_of_element (fun _ found => spells_of_body found) read
  exact ⟨spelled.wellNamed, bytes, spelled, rest⟩

/-- A chord inside a measure, with an attribute and a text. -/
def sampleMeasure : Element :=
  { tag := "measure", attributes := [("n", "1")],
    children := [{ tag := "chord", text := some "C" }] }

theorem readElement_spells_measure :
    ∃ e after, readElement (.ofBytes (utf8 (markup 0 sampleMeasure))) = .ok (e, after) ∧
      e.Everywhere WellNamed ∧
      ∃ bytes, Spells e bytes ∧ utf8 (markup 0 sampleMeasure) = bytes ++ after.rest := by
  have names : IsName "measure" ∧ IsName "n" ∧ IsName "chord" := by decide
  have named : sampleMeasure.Everywhere WellNamed := by
    refine everywhere_iff.2 ⟨⟨names.1, by simpa [sampleMeasure] using names.2.1, by decide⟩, ?_⟩
    intro c member
    obtain rfl := List.mem_singleton.1 member
    exact everywhere_iff.2 ⟨⟨names.2.2, nofun, by decide⟩, nofun⟩
  have read := @readElement_written [] .start _ named (by decide)
  rw [List.append_nil] at read
  exact ⟨_, _, read, (readElement_spells _).2 _ _ read⟩

end ScoreScript.Markup
