import ScoreScript.Markup.Reader
import ScoreScript.Proofs.Assoc
import ScoreScript.Proofs.Markup.Escape
import ScoreScript.Proofs.Source.Cursor

/-!
Elements that are written and read back. The reader is run on the bytes of a tag and whatever comes
after them; it returns what was written and stops right behind it. Between tags it collects the text
up to the next one, goes into a child or out of the element, and gives up at a child that lies too
deep.
-/

namespace ScoreScript.Markup

open Element Cursor

/-- A name that the reader accepts: a first byte that begins names, then bytes of names. -/
structure IsName (name : String) : Prop where
  start : (utf8 name).head?.any isNameStart = true
  bytes : ∀ b ∈ utf8 name, isNameByte b = true

instance (name : String) : Decidable (IsName name) :=
  decidable_of_iff
    ((utf8 name).head?.any isNameStart = true ∧ (utf8 name).all isNameByte = true)
    ⟨fun h => ⟨h.1, List.all_eq_true.1 h.2⟩, fun h => ⟨h.start, List.all_eq_true.2 h.bytes⟩⟩

/-- Names the reader accepts, no attribute twice. -/
structure WellNamed (e : Element) : Prop where
  tag : IsName e.tag
  names : ∀ entry ∈ e.attributes, IsName entry.1
  distinct : (e.attributes.map (·.1)).Nodup

variable {rest : List UInt8} {p : Pos}

@[simp]
theorem textOf_utf8 (text : String) : textOf (utf8 text) = .ok text := by
  rw [textOf, ofUtf8?_utf8]

theorem expect_cons (char : Char) {b : UInt8} (h : char.toUInt8 = b) :
    expect ⟨b :: rest, p⟩ char = .ok ⟨rest, p.after [b]⟩ := by
  rw [expect, h, consume?_cons]

/-! ### Names and values -/

theorem IsName.exists_cons {name : String} (h : IsName name) :
    ∃ b bytes, utf8 name = b :: bytes ∧ isNameStart b = true := by
  have first := h.start
  cases bytes : utf8 name with
  | nil => simp [bytes] at first
  | cons b rest => exact ⟨b, rest, rfl, by simpa [bytes] using first⟩

theorem whitespace_of_isNameStart {b : UInt8} (h : isNameStart b = true) :
    isWhitespace b = false := by
  by_contra blank
  rw [Bool.not_eq_false] at blank
  simp only [isWhitespace, Bool.or_eq_true, beq_iff_eq] at blank
  rcases blank with ((rfl | rfl) | rfl) | rfl <;> exact absurd h (by decide)

theorem readName_append {name : String} (h : IsName name) (stop : Stops isNameByte rest) :
    readName ⟨utf8 name ++ rest, p⟩ = .ok (name, ⟨rest, p.after (utf8 name)⟩) := by
  have first : (⟨utf8 name ++ rest, p⟩ : Cursor).current.any isNameStart = true := by
    obtain ⟨b, bytes, split, start⟩ := h.exists_cons
    simp [Cursor.current, split, start]
  rw [readName, if_pos first, skipWhile_append _ h.bytes stop]
  simp only [upTo_append, textOf_utf8]
  rfl

theorem readValue_quoted (value : String) :
    readValue ⟨0x22 :: (utf8 (escape true value) ++ 0x22 :: rest), p⟩ =
      .ok (value, ⟨rest, p.after (0x22 :: (utf8 (escape true value) ++ [0x22]))⟩) := by
  have stop : Stops (· != 0x22) (0x22 :: rest) := stops_cons (by decide)
  have noQuote : ∀ b ∈ utf8 (escape true value), (b != 0x22) = true :=
    escape_without '"' (by decide) (by decide) (.inr ⟨rfl, rfl⟩) value
  unfold readValue
  simp only [Cursor.current, List.head?_cons, true_or, if_true, advance_cons,
    skipWhile_append _ noQuote stop, upTo_append, textOf_utf8, Cursor.isEnd,
    List.isEmpty_cons]
  simp [Entity.decode_escape, bind, Except.bind, pure, Except.pure, ← Pos.after_append]

variable (rest) in
theorem readAttribute_written {name : String} (named : IsName name) (value : String) :
    readAttribute
        ⟨utf8 name ++ 0x3D :: 0x22 :: (utf8 (escape true value) ++ 0x22 :: rest), p⟩ =
      .ok ((name, value),
        ⟨rest, p.after (utf8 name ++ 0x3D :: 0x22 :: (utf8 (escape true value) ++ [0x22]))⟩) := by
  have equals : Stops isNameByte
      (0x3D :: 0x22 :: (utf8 (escape true value) ++ 0x22 :: rest)) := stops_cons (by decide)
  have noBlank {b : UInt8} {more : List UInt8} {q : Pos} (h : isWhitespace b = false) :
      (⟨b :: more, q⟩ : Cursor).skipWhitespace = ⟨b :: more, q⟩ := skipWhile_stop (stops_cons h)
  unfold readAttribute
  simp only [readName_append named equals, bind, Except.bind,
    noBlank (b := 0x3D) (by decide), expect_cons '=' (b := 0x3D) rfl,
    noBlank (b := 0x22) (by decide), readValue_quoted, pure, Except.pure]
  rw [← Pos.after_append, ← Pos.after_append]
  rfl

/-! ### Attributes and tags -/

theorem utf8_attributeText_nil : utf8 (attributeText []) = [] := rfl

theorem utf8_attributeText_cons (name value : String) (attributes : Assoc String) :
    utf8 (attributeText ((name, value) :: attributes)) =
      0x20 :: (utf8 name ++ 0x3D :: 0x22 :: (utf8 (escape true value) ++
        0x22 :: utf8 (attributeText attributes))) := by
  have space : utf8 " " = [0x20] := rfl
  have equals : utf8 "=\"" = [0x3D, 0x22] := rfl
  have quote : utf8 "\"" = [0x22] := rfl
  simp only [attributeText, List.map_cons, String.join_cons, utf8_append, List.append_assoc,
    space, equals, quote, List.cons_append, List.nil_append]

theorem readAttributes_end {before : Assoc String} {c : Cursor}
    (last : c.skipWhitespace.look = some '/' ∨ c.skipWhitespace.look = some '>') :
    readAttributes before c = .ok (before, c.skipWhitespace) := by
  rw [readAttributes]
  split
  · rfl
  · rfl
  · simp_all
  · simp_all

theorem readAttributes_next {before : Assoc String} {c after : Cursor} {entry : String × String}
    (start : c.skipWhitespace.current.any isNameStart = true)
    (next : readAttribute c.skipWhitespace = .ok (entry, after))
    (fresh : before.contains entry.1 = false) :
    readAttributes before c = readAttributes (before ++ [entry]) after := by
  have look : c.skipWhitespace.look ≠ none := by
    intro none
    rw [Cursor.look, Option.map_eq_none_iff] at none
    simp [none] at start
  have noEnd {sign : Char} (here : c.skipWhitespace.look = some sign) :
      isNameStart sign.toUInt8 = true := by
    rwa [current_of_look here] at start
  rw [readAttributes.eq_def before c]
  split
  · rename_i slash
    exact absurd (noEnd slash) (by decide)
  · rename_i sign
    exact absurd (noEnd sign) (by decide)
  · rename_i none
    exact absurd none look
  · split
    · rename_i failed
      rw [next] at failed
      cases failed
    · rename_i read
      rw [next] at read
      cases read
      rw [if_neg (by simp [fresh])]

variable (rest) in
/-- A start tag goes on where its attributes end: perhaps after a space, with one of two
signs. -/
theorem readAttributes_written {blank : List UInt8} (space : ∀ b ∈ blank, isWhitespace b = true)
    {sign : UInt8} (last : sign = 0x2F ∨ sign = 0x3E) :
    ∀ (before : Assoc String) {attributes : Assoc String} {p : Pos},
      (∀ entry ∈ attributes, IsName entry.1) → ((before ++ attributes).map (·.1)).Nodup →
      readAttributes before ⟨utf8 (attributeText attributes) ++ (blank ++ sign :: rest), p⟩ =
        .ok (before ++ attributes,
          ⟨sign :: rest, p.after (utf8 (attributeText attributes) ++ blank)⟩)
  | before, [], p, _, _ => by
    have stop : Stops isWhitespace (sign :: rest) :=
      stops_cons (by rcases last with rfl | rfl <;> decide)
    have passed :
        (⟨utf8 (attributeText []) ++ (blank ++ sign :: rest), p⟩ : Cursor).skipWhitespace =
          ⟨sign :: rest, p.after blank⟩ := skipWhile_append _ space stop
    rw [readAttributes_end, passed, List.append_nil, utf8_attributeText_nil, List.nil_append]
    · rw [passed]
      exact last.imp (fun same => by rw [same]; rfl) (fun same => by rw [same]; rfl)
  | before, (name, value) :: attributes, p, named, distinct => by
    have isName : IsName name := named (name, value) List.mem_cons_self
    obtain ⟨b, bytes, first, start⟩ := isName.exists_cons
    -- the space before the name is passed, and the name begins an attribute
    have noSpace : isWhitespace b = false := whitespace_of_isNameStart start
    have passed {more : List UInt8} :
        (⟨0x20 :: (utf8 name ++ more), p⟩ : Cursor).skipWhitespace =
          ⟨utf8 name ++ more, p.after [0x20]⟩ :=
      skipWhile_append [0x20] (List.forall_mem_singleton.2 rfl)
        (by rw [first]; exact stops_cons noSpace)
    have fresh : before.contains name = false := Assoc.contains_of_nodup distinct
    have next := readAttribute_written (p := p.after [0x20])
      (utf8 (attributeText attributes) ++ (blank ++ sign :: rest)) isName value
    rw [← passed] at next
    rw [utf8_attributeText_cons]
    simp only [List.cons_append, List.append_assoc]
    rw [readAttributes_next _ next fresh,
      readAttributes_written space last _ (fun entry member =>
        named _ (List.mem_cons_of_mem _ member)) (by simpa using distinct)]
    · simp [← Pos.after_append]
    · rw [passed]
      simp [Cursor.current, first, start]

theorem utf8_opening (tag : String) (attributes : Assoc String) :
    utf8 (opening tag attributes) = 0x3C :: (utf8 tag ++ utf8 (attributeText attributes)) := by
  have sign : utf8 "<" = [0x3C] := rfl
  rw [opening, utf8_append, utf8_append, sign]
  rfl

/-- The bytes of names end before the attributes and the end of a tag. -/
theorem stops_attributeText {attributes : Assoc String} (stop : Stops isNameByte rest) :
    Stops isNameByte (utf8 (attributeText attributes) ++ rest) := by
  cases attributes with
  | nil => exact stop
  | cons entry attributes =>
    rw [utf8_attributeText_cons]
    exact stops_cons (by decide)

section

variable {e : Element} (named : WellNamed e)
include named

variable (rest) in
/-- Everything but the end of a start tag. -/
theorem startTag_written (blank : List UInt8) (space : ∀ b ∈ blank, isWhitespace b = true)
    {sign : UInt8} (last : sign = 0x2F ∨ sign = 0x3E)
    (stop : Stops isNameByte (blank ++ sign :: rest)) :
    startTag ⟨utf8 (opening e.tag e.attributes) ++ (blank ++ sign :: rest), p⟩ =
      (do
        let c : Cursor := ⟨sign :: rest, p.after (utf8 (opening e.tag e.attributes) ++ blank)⟩
        let after ← expect (c.skipOptional 0x2F) '>'
        pure ((⟨e.tag, e.attributes, [], ""⟩, (c.consume? 0x2F).isSome), after)) := by
  obtain ⟨b, bytes, first, start⟩ := named.tag.exists_cons
  have noSlash {q : Pos} {more : List UInt8} :
      (⟨utf8 e.tag ++ more, q⟩ : Cursor).look ≠ some '/' := by
    intro slash
    have here := current_of_look slash
    rw [first, List.cons_append, Cursor.current, List.head?_cons, Option.some.injEq] at here
    exact absurd (here ▸ start) (by decide)
  have read {q : Pos} := readAttributes_written (p := q) rest space last [] named.names
    (by simpa using named.distinct)
  rw [List.nil_append] at read
  unfold startTag
  simp only [utf8_opening, List.cons_append, List.append_assoc, bind, Except.bind,
    expect_cons '<' (b := 0x3C) rfl, noSlash, if_false,
    readName_append named.tag (stops_attributeText stop), read, pure, Except.pure,
    ← Pos.after_append, List.nil_append]

variable (rest) in
theorem startTag_open :
    startTag ⟨utf8 (opening e.tag e.attributes) ++ 0x3E :: rest, p⟩ =
      .ok ((⟨e.tag, e.attributes, [], ""⟩, false),
        ⟨rest, p.after (utf8 (opening e.tag e.attributes) ++ [0x3E])⟩) := by
  have read := startTag_written (p := p) rest named [] (by simp) (.inr rfl) (stops_cons (by decide))
  have noSlash {q : Pos} : (⟨0x3E :: rest, q⟩ : Cursor).consume? 0x2F = none :=
    consume?_cons_ne (by decide)
  rw [List.nil_append, List.append_nil] at read
  simp only [read, skipOptional, noSlash, Option.getD_none, bind, Except.bind, pure, Except.pure,
    expect_cons '>' (b := 0x3E) rfl, Option.isSome_none, ← Pos.after_append]

variable (rest) in
theorem startTag_empty :
    startTag ⟨utf8 (opening e.tag e.attributes) ++ 0x20 :: 0x2F :: 0x3E :: rest, p⟩ =
      .ok ((⟨e.tag, e.attributes, [], ""⟩, true),
        ⟨rest, p.after (utf8 (opening e.tag e.attributes) ++ [0x20, 0x2F, 0x3E])⟩) := by
  have read := startTag_written (p := p) (0x3E :: rest) named [0x20]
    (List.forall_mem_singleton.2 rfl) (.inl rfl) (stops_cons (by decide))
  rw [List.singleton_append] at read
  simp only [read, skipOptional, consume?_cons, Option.getD_some, bind, Except.bind, pure,
    Except.pure, expect_cons '>' (b := 0x3E) rfl, Option.isSome_some,
    ← Pos.after_append, List.append_assoc, List.cons_append, List.nil_append]

end

variable (rest) in
theorem closingTag_written {tag : String} (named : IsName tag) :
    closingTag tag ⟨utf8 tag ++ 0x3E :: rest, p⟩ = .ok ⟨rest, p.after (utf8 tag ++ [0x3E])⟩ := by
  have stop : Stops isNameByte (0x3E :: rest) := stops_cons (by decide)
  have noBlank {q : Pos} : (⟨0x3E :: rest, q⟩ : Cursor).skipWhitespace = ⟨0x3E :: rest, q⟩ :=
    skipWhile_stop (stops_cons (by decide))
  unfold closingTag
  simp only [readName_append named stop, bind, Except.bind, if_true, noBlank,
    expect_cons '>' (b := 0x3E) rfl, ← Pos.after_append]

/-! ### What comes next -/

theorem startsWith_cons {b : UInt8} {c : Char} {word : String} {cs : List Char}
    (split : word.toList = c :: cs) (other : c.toUInt8 ≠ b) :
    (⟨b :: rest, p⟩ : Cursor).startsWith word = false := by
  rw [startsWith, split, List.map_cons, List.isPrefixOf_cons_cons, beq_eq_false_iff_ne.2 other,
    Bool.false_and]

theorem startsWith_cons₂ {a b : UInt8} {c d : Char} {word : String} {cs : List Char}
    (split : word.toList = c :: d :: cs) (other : d.toUInt8 ≠ b) :
    (⟨a :: b :: rest, p⟩ : Cursor).startsWith word = false := by
  rw [startsWith, split, List.map_cons, List.map_cons, List.isPrefixOf_cons_cons,
    List.isPrefixOf_cons_cons, beq_eq_false_iff_ne.2 other, Bool.false_and, Bool.and_false]

theorem startsWith_element {b : UInt8} (start : isNameStart b = true) (word : String) {c : Char}
    {cs : List Char} (split : word.toList = '<' :: c :: cs)
    (apart : isNameStart c.toUInt8 = false) :
    (⟨0x3C :: b :: rest, p⟩ : Cursor).startsWith word = false := by
  apply startsWith_cons₂ split
  intro same
  rw [same, start] at apart
  cases apart

theorem mark_child {b : UInt8} (start : isNameStart b = true) :
    ContentMark.of ⟨0x3C :: b :: rest, p⟩ = .child := by
  have tag : (⟨0x3C :: b :: rest, p⟩ : Cursor).startsWith "<" = true := rfl
  rw [ContentMark.of, startsWith_element start "</" rfl (by decide),
    startsWith_element start "<!--" rfl (by decide),
    startsWith_element start "<![CDATA[" rfl (by decide),
    startsWith_element start "<?" rfl (by decide), tag]
  rfl

theorem mark_text {b : UInt8} (other : b ≠ 0x3C) : ContentMark.of ⟨b :: rest, p⟩ = .text := by
  have none (word : String) {cs : List Char} (split : word.toList = '<' :: cs) :
      (⟨b :: rest, p⟩ : Cursor).startsWith word = false := startsWith_cons split other.symm
  rw [ContentMark.of, none "</" rfl, none "<!--" rfl,
    none "<![CDATA[" rfl, none "<?" rfl, none "<" rfl]
  rfl

theorem mark_closing : ContentMark.of ⟨0x3C :: 0x2F :: rest, p⟩ = .closingTag := rfl

theorem skipMisc_none {c : Cursor} (none : miscAt c.skipWhitespace = none) :
    skipMisc c = .ok c.skipWhitespace := by
  rw [skipMisc.eq_def]
  split
  · rfl
  · rename_i found
    rw [none] at found
    cases found

variable (rest) in
theorem skipMisc_element {b : UInt8} (start : isNameStart b = true) :
    skipMisc ⟨0x3C :: b :: rest, p⟩ = .ok ⟨0x3C :: b :: rest, p⟩ := by
  have noBlank : (⟨0x3C :: b :: rest, p⟩ : Cursor).skipWhitespace = ⟨0x3C :: b :: rest, p⟩ :=
    skipWhile_stop (stops_cons (by decide))
  have noMisc : miscAt (⟨0x3C :: b :: rest, p⟩ : Cursor).skipWhitespace = none := by
    rw [noBlank, miscAt, startsWith_element start "<?" rfl (by decide),
      startsWith_element start "<!--" rfl (by decide)]
    rfl
  rw [skipMisc_none noMisc, noBlank]

variable (rest) in
/-- Nothing is passed before an element. -/
theorem skipProlog_element {b : UInt8} (start : isNameStart b = true) :
    skipProlog ⟨0x3C :: b :: rest, p⟩ = .ok ⟨0x3C :: b :: rest, p⟩ := by
  have noDoctype : (⟨0x3C :: b :: rest, p⟩ : Cursor).startsWith "<!DOCTYPE" = false :=
    startsWith_element start _ rfl (by decide)
  rw [skipProlog, skipMisc_element rest start]
  simp [noDoctype, bind, Except.bind, pure, Except.pure]

/-! ### The text up to a tag -/

theorem escape_noTag (text : String) :
    ∀ b ∈ utf8 (escape false text), (b != 0x3C) = true :=
  escape_without '<' (by decide) (by decide) (.inl rfl) text

theorem escape_ne_empty {inAttribute : Bool} {text : String} (h : text ≠ "") :
    escape inAttribute text ≠ "" := by
  intro none
  have decoded := Entity.decode_escape inAttribute text
  rw [none] at decoded
  have empty : Entity.decode "" = .ok "" := by simp [Entity.decode, Entity.decodeFrom, Except.map]
  rw [empty] at decoded
  cases decoded
  exact h rfl

theorem plainText_written {text : String} (some_text : text ≠ "") :
    plainText ⟨utf8 (escape false text) ++ 0x3C :: rest, p⟩ =
      .ok (text, ⟨0x3C :: rest, p.after (utf8 (escape false text))⟩) := by
  have stop : Stops (· != 0x3C) (0x3C :: rest) := stops_cons (by decide)
  have noTag := escape_noTag text
  have passed : (⟨utf8 (escape false text) ++ 0x3C :: rest, p⟩ : Cursor).advance.skipWhile
      (· != 0x3C) = ⟨0x3C :: rest, p.after (utf8 (escape false text))⟩ := by
    cases bytes : utf8 (escape false text) with
    | nil => exact absurd bytes (utf8_ne_nil (escape_ne_empty some_text))
    | cons b more =>
      rw [bytes] at noTag
      rw [List.cons_append, advance_cons,
        skipWhile_append _ (fun c member => noTag c (List.mem_cons_of_mem b member)) stop]
      rfl
  unfold plainText
  simp only [passed, upTo_append, textOf_utf8, Entity.decode_escape, bind, Except.bind, pure,
    Except.pure]

theorem content_text {e : OpenElement} {c after : Cursor} {text : String}
    (more : c.isEnd = false) (mark : ContentMark.of c = .text)
    (read : plainText c = .ok (text, after)) :
    content e c = content (e.addText text) after := by
  rw [content.eq_def e c, dif_neg (by simp [more])]
  simp only [mark]
  split
  · rename_i failed
    rw [read] at failed
    cases failed
  · rename_i found
    rw [read] at found
    cases found
    rfl

/-- The text before a tag belongs to the element around it. -/
theorem content_written (e : OpenElement) (text : String) :
    content e ⟨utf8 (escape false text) ++ 0x3C :: rest, p⟩ =
      content (e.addText text) ⟨0x3C :: rest, p.after (utf8 (escape false text))⟩ := by
  by_cases none : text = ""
  · subst none
    have same : e.addText "" = e := by rw [OpenElement.addText, String.append_empty]
    rw [same]
    rfl
  · have noTag := escape_noTag text
    apply content_text _ _ (plainText_written none)
    · simp [Cursor.isEnd]
    · cases bytes : utf8 (escape false text) with
      | nil => exact absurd bytes (utf8_ne_nil (escape_ne_empty none))
      | cons b more =>
        rw [bytes] at noTag
        exact mark_text (bne_iff_ne.1 (noTag b List.mem_cons_self))

theorem content_child (e : OpenElement) (text : String) {b : UInt8}
    (start : isNameStart b = true) :
    content e ⟨utf8 (escape false text) ++ 0x3C :: b :: rest, p⟩ =
      .ok ((e.addText text, false), ⟨0x3C :: b :: rest, p.after (utf8 (escape false text))⟩) := by
  rw [content_written, content.eq_def, dif_neg (by simp [Cursor.isEnd])]
  simp only [mark_child start]

theorem utf8_closing (tag : String) :
    utf8 (closing tag) = 0x3C :: 0x2F :: (utf8 tag ++ [0x3E]) := by
  have slash : utf8 "</" = [0x3C, 0x2F] := rfl
  have sign : utf8 ">" = [0x3E] := rfl
  rw [closing, utf8_append, utf8_append, slash, sign]
  rfl

variable (rest) in
theorem content_close {e : OpenElement} (named : IsName e.tag) (text : String) :
    content e ⟨utf8 (escape false text) ++ (utf8 (closing e.tag) ++ rest), p⟩ =
      .ok ((e.addText text, true),
        ⟨rest, p.after (utf8 (escape false text) ++ utf8 (closing e.tag))⟩) := by
  have read {q : Pos} := closingTag_written (p := q) rest named
  have passed {q : Pos} : (⟨0x3C :: 0x2F :: (utf8 e.tag ++ 0x3E :: rest), q⟩ : Cursor).advanceBy 2 =
      ⟨utf8 e.tag ++ 0x3E :: rest, q.after [0x3C, 0x2F]⟩ :=
    advanceBy_append [0x3C, 0x2F] rfl
  rw [utf8_closing]
  simp only [List.cons_append, List.append_assoc, List.nil_append]
  rw [content_written, content.eq_def, dif_neg (by simp [Cursor.isEnd])]
  simp only [mark_closing, passed, OpenElement.addText, read, Except.map, ← Pos.after_append,
    List.append_assoc, List.cons_append, List.nil_append]

/-! ### Going in and out -/

/-- What follows when an element is closed: it is the root, or a child of the one below. -/
def resume (closed : Element) (below : List OpenElement) (c : Cursor) :
    Except Error (Element × Cursor) :=
  match below with
  | [] => .ok (closed, c)
  | parent :: rest => inside (parent.addChild closed) rest c

theorem inside_closed {top e : OpenElement} {below : List OpenElement} {c after : Cursor}
    (read : content top c = .ok ((e, true), after)) :
    inside top below c = resume e.close below after := by
  rw [inside.eq_def]
  split <;> rename_i found <;> rw [read] at found <;> cases found
  cases below <;> rfl

theorem inside_deep {top e : OpenElement} {below : List OpenElement} {c after : Cursor}
    (read : content top c = .ok ((e, false), after)) (deep : maxDepth ≤ below.length + 1) :
    inside top below c = .error (.point (.limit (.depth maxDepth)) after.pos) := by
  rw [inside.eq_def]
  split <;> rename_i found <;> rw [read] at found <;> cases found
  rw [if_pos deep]

theorem inside_child {top e child : OpenElement} {below : List OpenElement} {empty : Bool}
    {c after next : Cursor} (read : content top c = .ok ((e, false), after))
    (room : below.length + 1 < maxDepth) (tag : startTag after = .ok ((child, empty), next)) :
    inside top below c =
      if empty then inside (e.addChild child.close) below next
      else inside child (e :: below) next := by
  rw [inside.eq_def top]
  split <;> rename_i found <;> rw [read] at found <;> cases found
  rw [if_neg (Nat.not_le.2 room)]
  split <;> rename_i opened <;> rw [tag] at opened <;> cases opened
  rfl

end ScoreScript.Markup
