import ScoreScript.Proofs.Json.Grammar
import ScoreScript.Proofs.Json.Literal
import ScoreScript.Proofs.Text.Boundary
import ScoreScript.Proofs.Characters.Tokens
import ScoreScript.Proofs.Markup.Doctype
import ScoreScript.Proofs.Markup.Spelling

/-!
Reading data files splits no character. All tokens but strings are written in ASCII, and what stands
between the quotes of a string is replaced only where an escape is. Main statements:
`Stream.isWhole_ofBytes`, `ofBytes_spares`.
-/

namespace ScoreScript

namespace Json

open Cursor

variable {c start : Cursor} {passed : List UInt8} {b : UInt8}

/-! ### Between tokens -/

theorem skipComment_spares (text : IsUtf8 c.rest) (slash : c.look = some '/') :
    Spares (.lexical .utf8) (fun after => IsUtf8 after.rest) (skipComment c) := by
  unfold skipComment
  split
  · rename_i second
    have body : IsUtf8 (c.advanceBy 2).rest := text.passes (.of_looks slash second (by decide))
    have feed : (0x0A : UInt8) < 0x80 := by decide
    exact (body.skipWhile fun _ => ne_of_le feed).2.advance feed (stops_skipWhile _ _)
  · rename_i second
    have body : IsUtf8 (c.advanceBy 2).rest := text.passes (.of_looks slash second (by decide))
    split
    · rename_i found
      obtain ⟨-, -, -, after⟩ := body.skipPast rfl (ascii_of_all rfl) found
      exact after
    · rintro ⟨⟩
  · rintro ⟨⟩

theorem skipIgnorable_spares {comments : Bool} (text : IsUtf8 c.rest) :
    Spares (.lexical .utf8) (fun after => IsUtf8 after.rest) (skipIgnorable comments c) := by
  fun_induction skipIgnorable comments c with
  | case1 c slash after comment shorter ih =>
    have blanks : IsUtf8 c.skipWhitespace.rest :=
      text.passes (.skipWhile fun _ => isWhitespace_ascii)
    exact ih ((skipComment_spares blanks slash.2).of_ok comment)
  | case2 c slash e comment =>
    have blanks : IsUtf8 c.skipWhitespace.rest :=
      text.passes (.skipWhile fun _ => isWhitespace_ascii)
    exact (skipComment_spares blanks slash.2).of_error comment
  | case3 c => exact text.passes (.skipWhile fun _ => isWhitespace_ascii)

/-! ### Strings -/

/-- The digits of an escape are ASCII. -/
theorem ascii_of_hexValue {count value n : Nat} (done : hexValue count value c = .ok n) :
    ∀ b ∈ c.rest.take count, b < 0x80 := by
  induction count generalizing value c with
  | zero => simp
  | succ count ih =>
    unfold hexValue at done
    split at done
    · rename_i digit found
      obtain ⟨letter, here, known⟩ := Option.bind_eq_some_iff.1 found
      obtain ⟨b, first, rfl⟩ := Option.map_eq_some_iff.1 here
      obtain ⟨rest, split⟩ := List.head?_eq_some_iff.1 first
      have behind := ih done
      rw [Cursor.advance, rest_advanceBy, split] at behind
      rw [split, List.take_succ_cons]
      exact List.forall_mem_cons.2 ⟨ascii_of_ofUInt8 (ascii_of_digit? known), behind⟩
    · cases done

/-- Behind every part of a literal, what was read and what is left make a text. -/
theorem text_of_part {more : List UInt8} {extra : Nat} (here : c.current = some b)
    (text : IsUtf8 (passed.reverse ++ c.rest)) (part : stringPart c b = .ok (.bytes more extra)) :
    IsUtf8 ((more.reverse ++ passed).reverse ++ (c.advanceBy (extra + 1)).rest) := by
  obtain ⟨rest, split⟩ := List.head?_eq_some_iff.1 here
  unfold stringPart at part
  split at part
  · cases part
  · rename_i slash
    have slash : b < 0x80 := ascii_of_ofUInt8 (by rw [slash]; decide)
    -- An escape is a backslash, a letter, and digits if the letter asks for them.
    have second {letter : Char} (looks : c.lookAt 1 = some letter) (ascii : letter.toNat < 128) :
        ∃ d rest', rest = d :: rest' ∧ d < 0x80 := by
      obtain ⟨d, behind, rfl⟩ := Option.map_eq_some_iff.1 looks
      rw [peek, split, List.getElem?_cons_succ, ← List.head?_eq_getElem?] at behind
      obtain ⟨rest', rfl⟩ := List.head?_eq_some_iff.1 behind
      exact ⟨d, rest', rfl, ascii_of_ofUInt8 ascii⟩
    rw [List.reverse_append, List.reverse_reverse]
    split at part
    · rename_i looks
      obtain ⟨d, rest', rfl, ascii⟩ := second looks (by decide)
      obtain ⟨char, escaped, ⟨⟩⟩ := ok_of_map part
      obtain ⟨n, digits, -⟩ := ok_of_bind escaped
      have ascii' := ascii_of_hexValue digits
      refine text.replace ?_ (.encode char)
      rw [rest_advanceBy, split, List.drop_succ_cons, List.drop_succ_cons, List.drop_zero] at ascii'
      rw [split, List.take_succ_cons, List.take_succ_cons]
      exact List.forall_mem_cons.2 ⟨slash, List.forall_mem_cons.2 ⟨ascii, ascii'⟩⟩
    · rename_i letter looks
      split at part
      · rename_i char named
        obtain ⟨d, rest', rfl, ascii⟩ := second looks (lt_of_escapeOf named)
        cases part
        refine text.replace ?_ (.encode char)
        rw [split, List.take_succ_cons, List.take_succ_cons, List.take_zero]
        exact List.forall_mem_cons.2 ⟨slash, List.forall_mem_cons.2 ⟨ascii, by simp⟩⟩
      · cases part
    · cases part
  · split at part
    · cases part
    · cases part
      simpa [rest_advanceBy, split] using text

theorem hexValue_spares {count value : Nat} :
    Spares (.lexical .utf8) (fun _ => True) (hexValue count value c) := by
  induction count generalizing value c with
  | zero => exact trivial
  | succ count ih =>
    unfold hexValue
    split
    · exact ih
    · rintro ⟨⟩

theorem unicodeEscape_spares : Spares (.lexical .utf8) (fun _ => True) (unicodeEscape c) := by
  unfold unicodeEscape
  refine hexValue_spares.bind fun n _ => ?_
  split
  · exact trivial
  · rintro ⟨⟩

theorem stringPart_spares :
    Spares (.lexical .utf8) (fun part => part = .close → b < 0x80) (stringPart c b) := by
  unfold stringPart
  split
  · rename_i quote
    exact fun _ => ascii_of_ofUInt8 (by rw [quote]; decide)
  · split
    · refine unicodeEscape_spares.map ?_
      rintro _ _ ⟨⟩
    · split
      · rintro ⟨⟩
      · rintro ⟨⟩
    · rintro ⟨⟩
  · split
    · rintro ⟨⟩
    · rintro ⟨⟩

theorem stringRest_spares (text : IsUtf8 (passed.reverse ++ c.rest)) :
    Spares (.lexical .utf8) (fun found => IsUtf8 found.2.rest) (stringRest c passed) := by
  fun_induction stringRest c passed with
  | case1 => rintro ⟨⟩
  | case2 c passed b rest here e failed => exact stringPart_spares.of_error failed
  | case3 c passed b rest here part =>
    have quote := stringPart_spares.of_ok part rfl
    have behind : c.advance.rest = rest := by rw [Cursor.advance, rest_advanceBy, here]; rfl
    rw [here] at text
    obtain ⟨before, after⟩ := text.behind_byte quote
    obtain ⟨value, known⟩ := before.exists_read
    rw [closeString, known]
    change IsUtf8 c.advance.rest
    rwa [behind]
  | case4 c passed b rest here more extra part less ih =>
    have current : c.current = some b := by rw [Cursor.current, here]; rfl
    exact ih (text_of_part current text part)

/-! ### Numbers and words -/

theorem someDigits_spares :
    Spares (.lexical .utf8) c.PassesAscii (someDigits start c) := by
  unfold someDigits
  split
  · exact .skipWhile fun _ => isDigit_ascii
  · rintro ⟨⟩

theorem passes_look {char : Char} (here : c.look = some char) (ascii : char.toUInt8 < 0x80) :
    c.PassesAscii c.advance :=
  .advance (current_of_look here) ascii

theorem wholePart_spares : Spares (.lexical .utf8) c.PassesAscii (wholePart start c) := by
  unfold wholePart
  split
  · rename_i zero
    exact passes_look zero (by decide)
  · exact someDigits_spares

theorem fractionPart_spares : Spares (.lexical .utf8) c.PassesAscii (fractionPart start c) := by
  unfold fractionPart
  split
  · rename_i after point
    exact someDigits_spares.mono fun _ => (PassesAscii.consume? point (by decide)).trans
  · exact .refl

theorem exponentPart_spares : Spares (.lexical .utf8) c.PassesAscii (exponentPart start c) := by
  unfold exponentPart
  split
  · rename_i mark
    have first : c.PassesAscii c.advance := by
      rcases mark with mark | mark
      · exact passes_look mark (by decide)
      · exact passes_look mark (by decide)
    refine someDigits_spares.mono fun _ later => first.trans (PassesAscii.trans ?_ later)
    split
    · rename_i sign
      rcases sign with sign | sign
      · exact passes_look sign (by decide)
      · exact passes_look sign (by decide)
    · exact .refl
  · exact .refl

theorem readNumber_spares :
    Spares (.lexical .utf8) (fun found => c.PassesAscii found.2) (readNumber c) := by
  have sign : c.PassesAscii (c.skipOptional 0x2D) := .skipOptional (by decide)
  refine wholePart_spares.bind fun _ whole => fractionPart_spares.bind fun _ fraction =>
    exponentPart_spares.bind fun _ exponent => ?_
  split
  · exact sign.trans (whole.trans (fraction.trans exponent))
  · rintro ⟨⟩

theorem readWord_spares {word : String} {kind : TokenKind}
    (ascii : ∀ b ∈ word.toList.map Char.toUInt8, b < 0x80) :
    Spares (.lexical .utf8) (fun found => c.PassesAscii found.2) (readWord c word kind) := by
  unfold readWord
  split
  · rename_i start
    exact .of_startsWith start ascii
  · rintro ⟨⟩

/-! ### Tokens -/

theorem readKind_spares (text : IsUtf8 c.rest) (here : c.current = some b) :
    Spares (.lexical .utf8) (fun found => IsUtf8 found.2.rest) (readKind c b) := by
  have sign {char : Char} (same : Char.ofUInt8 b = char) (ascii : char.toNat < 128) :
      IsUtf8 c.advance.rest :=
    text.passes (.advance here (ascii_of_ofUInt8 (same ▸ ascii)))
  unfold readKind
  split
  case h_7 quote =>
    refine (stringRest_spares ?_).bind fun _ after => after
    exact sign quote (by decide)
  case h_8 | h_9 | h_10 =>
    exact (readWord_spares (ascii_of_all rfl)).mono fun _ => text.passes
  case h_11 =>
    split
    · exact readNumber_spares.mono fun _ => text.passes
    · rintro ⟨⟩
  all_goals
    rename_i same
    exact sign same (by decide)

namespace Stream

/-- If reading tokens fails, it is not because some bytes are no text. -/
def IsWhole (s : Stream) : Prop :=
  ∀ e, s.final = .error e → e.cause ≠ .lexical .utf8

theorem isWhole_read {comments : Bool} {before : List (Token TokenKind)} (text : IsUtf8 c.rest) :
    (read comments c before).IsWhole := by
  fun_induction read comments c before with
  | case1 c before e ignored =>
    rintro _ ⟨⟩
    exact (skipIgnorable_spares text).of_error ignored
  | case2 c before start ignored ended =>
    rintro _ ⟨⟩
  | case3 c before start ignored b here e token =>
    rintro _ ⟨⟩
    exact (readKind_spares ((skipIgnorable_spares text).of_ok ignored) here).of_error token
  | case4 c before start ignored b here kind after token shorter ih =>
    exact ih ((readKind_spares ((skipIgnorable_spares text).of_ok ignored) here).of_ok token)

theorem isWhole_ofBytes (comments : Bool) (text : String) :
    (ofBytes comments (utf8 text)).IsWhole :=
  isWhole_read (.of_utf8 text)

theorem IsWhole.next {s : Stream} (whole : s.IsWhole) :
    Spares (.lexical .utf8) (fun found => found.2.IsWhole) s.next := by
  obtain ⟨tokens, final⟩ := s
  cases tokens with
  | cons t tokens => exact whole
  | nil =>
    cases final with
    | error e => exact whole e rfl
    | ok span => exact whole

end Stream

/-! ### Values -/

/-- What is read from a stream with no bytes that are no text. -/
def SparesValue (result : Except Error (Json × Stream)) : Prop :=
  Spares (.lexical .utf8) (fun found => found.2.IsWhole) result

/-- What the readers do that have so much budget. -/
structure SparesWithin (limits : Limits) (budget : Nat) : Prop where
  value : ∀ depth t s, s.IsWhole → SparesValue (value budget limits depth t s)
  members : ∀ depth before t s, s.IsWhole → SparesValue (members budget limits depth before t s)
  elements : ∀ depth before t s, s.IsWhole → SparesValue (elements budget limits depth before t s)

variable {limits : Limits} {budget depth : Nat} {t : Token TokenKind} {s : Stream}

theorem checkDepth_spares {span : Span} :
    Spares (.lexical .utf8) (fun _ => True) (limits.checkDepth depth span) := by
  unfold Limits.checkDepth
  split
  · exact trivial
  · rintro ⟨⟩

theorem value_spares (within : SparesWithin limits budget) (whole : s.IsWhole) :
    SparesValue (value (budget + 1) limits depth t s) := by
  rw [value]
  split
  case h_6 =>
    refine checkDepth_spares.bind fun _ _ => whole.next.bind ?_
    rintro ⟨key, s⟩ whole
    dsimp only
    split
    · exact whole
    · exact within.members _ _ _ _ whole
  case h_7 =>
    refine checkDepth_spares.bind fun _ _ => whole.next.bind ?_
    rintro ⟨item, s⟩ whole
    dsimp only
    split
    · exact whole
    · exact within.elements _ _ _ _ whole
  case h_8 => rintro ⟨⟩
  all_goals exact whole

/-- What comes behind an item. -/
theorem elementsBehind_spares (within : SparesWithin limits budget) (items : List Json)
    (whole : s.IsWhole) : SparesValue (elementsBehind budget limits depth items s) := by
  unfold elementsBehind
  refine whole.next.bind ?_
  rintro ⟨separator, s⟩ whole
  dsimp only
  split
  · exact whole
  · refine whole.next.bind ?_
    rintro ⟨next, s⟩ whole
    dsimp only
    split
    · rintro ⟨⟩
    · exact within.elements _ _ _ _ whole
  · rintro ⟨⟩

/-- What comes behind an entry. -/
theorem membersBehind_spares (within : SparesWithin limits budget) (entries : Assoc Json)
    (whole : s.IsWhole) : SparesValue (membersBehind budget limits depth entries s) := by
  unfold membersBehind
  refine whole.next.bind ?_
  rintro ⟨separator, s⟩ whole
  dsimp only
  split
  · exact whole
  · refine whole.next.bind ?_
    rintro ⟨next, s⟩ whole
    dsimp only
    split
    · rintro ⟨⟩
    · exact within.members _ _ _ _ whole
  · rintro ⟨⟩

theorem members_spares (within : SparesWithin limits budget) (before : Assoc Json)
    (whole : s.IsWhole) : SparesValue (members (budget + 1) limits depth before t s) := by
  rw [members]
  split
  · refine whole.next.bind ?_
    rintro ⟨colon, s⟩ whole
    dsimp only
    split
    · refine whole.next.bind ?_
      rintro ⟨first, s⟩ whole
      refine (within.value _ _ _ whole).bind ?_
      rintro ⟨v, s⟩ whole
      split
      · rintro ⟨⟩
      · exact membersBehind_spares within _ whole
    · rintro ⟨⟩
  · rintro ⟨⟩

theorem elements_spares (within : SparesWithin limits budget) (before : List Json)
    (whole : s.IsWhole) : SparesValue (elements (budget + 1) limits depth before t s) := by
  rw [elements_succ]
  refine (within.value _ _ _ whole).bind ?_
  rintro ⟨v, s⟩ whole
  exact elementsBehind_spares within _ whole

theorem sparesWithin (limits : Limits) (budget : Nat) : SparesWithin limits budget := by
  induction budget with
  | zero =>
    constructor
    all_goals
      intros
      rintro ⟨⟩
  | succ budget ih =>
    exact ⟨fun _ _ _ => value_spares ih, fun _ before _ _ => members_spares ih before,
      fun _ before _ _ => elements_spares ih before⟩

theorem ofStream_spares (limits : Limits) (whole : s.IsWhole) :
    Spares (.lexical .utf8) (fun _ => True) (ofStream limits s) := by
  unfold ofStream
  refine whole.next.bind ?_
  rintro ⟨first, s⟩ whole
  refine ((sparesWithin limits _).value _ _ _ whole).bind ?_
  rintro ⟨v, s⟩ whole
  refine whole.next.bind ?_
  rintro ⟨last, s⟩ _
  dsimp only
  split
  · exact trivial
  · rintro ⟨⟩

/-- The characters of a data file may be wrong, but they are characters. -/
theorem ofBytes_spares (limits : Limits) (text : String) :
    Spares (.lexical .utf8) (fun _ => True) (ofBytes limits (utf8 text)) := by
  unfold ofBytes Limits.checkSize
  split
  · exact ofStream_spares limits (Stream.isWhole_ofBytes true text)
  · rintro ⟨⟩

end Json

/-!
Reading documents splits no character. A name ends before a byte below `0x80`, and every other piece
of a document before a mark that is written in ASCII. With what is known of scripts and data files,
no reader finds bytes in a text that are no text. Main statement: `characters_whole`.
-/

namespace Entity

theorem decode_spares (text : String) :
    Spares (.grammar (.markup .utf8)) (fun _ => True) (decode text) := by
  have from_ (before cs : List Char) :
      Spares (.grammar (.markup .utf8)) (fun _ => True) (decodeFrom before cs) := by
    fun_induction decodeFrom before cs with
    | case1 => exact trivial
    | case2 => rintro ⟨⟩
    | case3 before after name behind first more c known ih => exact ih
    | case4 => rintro ⟨⟩
    | case5 before c rest other ih => exact ih
  exact (from_ [] text.toList).map fun _ _ => trivial

end Entity

namespace Markup

open Cursor

variable {c : Cursor} {bytes : List UInt8}

/-- What is read leaves a text, or it fails but not because some bytes are none. -/
def Leaves {α : Type} (left : α → Cursor) (result : Except Error α) : Prop :=
  Spares (.grammar (.markup .utf8)) (fun found => IsUtf8 (left found).rest) result

theorem textOf_spares (text : IsUtf8 bytes) :
    Spares (.grammar (.markup .utf8)) (fun _ => True) (textOf bytes) := by
  obtain ⟨value, known⟩ := text.exists_read
  rw [textOf, known]
  exact trivial

theorem expect_leaves {char : Char} (text : IsUtf8 c.rest) (ascii : char.toUInt8 < 0x80) :
    Leaves id (expect c char) := by
  unfold expect
  split
  · rename_i found
    exact text.passes (.consume? found ascii)
  · rintro ⟨⟩

theorem text_skipWhitespace (text : IsUtf8 c.rest) : IsUtf8 c.skipWhitespace.rest :=
  text.passes (.skipWhile fun _ => isWhitespace_ascii)

/-! ### Before the root element -/

theorem skipPast_leaves {word : String} {b : UInt8} {more : List UInt8} (text : IsUtf8 c.rest)
    (word_eq : word.toList.map Char.toUInt8 = b :: more) (ascii : ∀ d ∈ b :: more, d < 0x80) :
    Leaves id (skipPast c word) := by
  unfold skipPast
  split
  · rename_i found
    obtain ⟨-, -, -, after⟩ := text.skipPast word_eq ascii found
    exact after
  · rintro ⟨⟩

theorem skipRegion_leaves {opening : String} {extra : Nat} {word : String} {b : UInt8}
    {more : List UInt8} (text : IsUtf8 c.rest) (start : c.startsWith opening = true)
    (ascii : ∀ d ∈ opening.toList.map Char.toUInt8, d < 0x80) (length : opening.length = extra + 1)
    (word_eq : word.toList.map Char.toUInt8 = b :: more) (ascii' : ∀ d ∈ b :: more, d < 0x80) :
    Leaves id (skipRegion c extra word) := by
  have opened := PassesAscii.of_startsWith start ascii
  rw [length] at opened
  exact skipPast_leaves (text.passes opened) word_eq ascii'

theorem misc_leaves {extra : Nat} {word : String} (text : IsUtf8 c.rest)
    (mark : miscAt c = some (extra, word)) : Leaves id (skipRegion c extra word) := by
  unfold miscAt at mark
  split at mark
  · rename_i start
    cases mark
    exact skipRegion_leaves text start (ascii_of_all rfl) rfl rfl (ascii_of_all rfl)
  · split at mark
    · rename_i start
      cases mark
      exact skipRegion_leaves text start (ascii_of_all rfl) rfl rfl (ascii_of_all rfl)
    · cases mark

theorem skipMisc_leaves (text : IsUtf8 c.rest) : Leaves id (skipMisc c) := by
  fun_induction skipMisc c with
  | case1 c mark => exact text_skipWhitespace text
  | case2 c extra word mark e region =>
    exact (misc_leaves (text_skipWhitespace text) mark).of_error region
  | case3 c extra word mark after region shorter ih =>
    exact ih ((misc_leaves (text_skipWhitespace text) mark).of_ok region)

/-- A document type ends with its sign. -/
theorem exists_of_doctypeLength? {opened passed count : Nat}
    (found : doctypeLength? opened passed bytes = some count) :
    ∃ inner rest, bytes = inner ++ 0x3E :: rest ∧ count = passed + inner.length + 1 := by
  induction bytes generalizing opened passed with
  | nil => cases found
  | cons b bytes ih =>
    rw [doctypeLength?_cons] at found
    split at found
    · rename_i last
      cases found
      exact ⟨[], bytes, by rw [last.1]; rfl, rfl⟩
    · obtain ⟨inner, rest, rfl, rfl⟩ := ih found
      refine ⟨b :: inner, rest, rfl, ?_⟩
      rw [List.length_cons]
      omega

theorem skipDoctype_leaves (text : IsUtf8 c.rest) : Leaves id (skipDoctype c) := by
  unfold skipDoctype
  split
  · rename_i count found
    obtain ⟨inner, rest, split, rfl⟩ := exists_of_doctypeLength? found
    have behind : (c.advanceBy (0 + inner.length + 1)).rest = rest := by
      rw [rest_advanceBy, split, Nat.zero_add, List.drop_append, List.drop_of_length_le (by omega),
        Nat.add_sub_cancel_left]
      rfl
    rw [split] at text
    change IsUtf8 (c.advanceBy (0 + inner.length + 1)).rest
    rw [behind]
    exact (text.behind_byte (by decide)).2
  · rintro ⟨⟩

theorem skipProlog_leaves (text : IsUtf8 c.rest) : Leaves id (skipProlog c) := by
  unfold skipProlog
  refine (skipMisc_leaves text).bind fun d text => ?_
  split
  · exact (skipDoctype_leaves text).bind fun _ => skipMisc_leaves
  · exact text

/-! ### Tags -/

/-- All bytes beyond ASCII may stand in names. -/
theorem isNameByte_of_le {b : UInt8} (wide : 0x80 ≤ b) : isNameByte b = true := by
  simp [isNameByte, isNameStart, wide]

theorem readName_leaves (text : IsUtf8 c.rest) : Leaves (·.2) (readName c) := by
  obtain ⟨name, after⟩ := text.skipWhile fun _ => isNameByte_of_le
  unfold readName
  split
  · exact (textOf_spares name).map fun _ _ => after
  · rintro ⟨⟩

theorem readValue_leaves (text : IsUtf8 c.rest) : Leaves (·.2) (readValue c) := by
  unfold readValue
  split
  · rename_i quote here
    split
    · rename_i isQuote
      have ascii : quote < 0x80 := by
        rcases isQuote with rfl | rfl <;> decide
      have opened : IsUtf8 c.advance.rest := text.passes (.advance here ascii)
      obtain ⟨raw, last⟩ := opened.skipWhile fun _ => ne_of_le ascii
      dsimp only
      split
      · rintro ⟨⟩
      · refine (textOf_spares raw).bind fun raw _ => (Entity.decode_spares raw).bind fun _ _ => ?_
        exact last.advance ascii (stops_skipWhile _ _)
    · rintro ⟨⟩
  · rintro ⟨⟩

theorem readAttribute_leaves (text : IsUtf8 c.rest) : Leaves (·.2) (readAttribute c) := by
  unfold readAttribute
  refine (readName_leaves text).bind ?_
  rintro ⟨name, c⟩ text
  refine (expect_leaves (text_skipWhitespace text) (by decide)).bind fun c text => ?_
  refine (readValue_leaves (text_skipWhitespace text)).bind ?_
  rintro ⟨value, c⟩ text
  exact text

theorem readAttributes_leaves {before : Assoc String} (text : IsUtf8 c.rest) :
    Leaves (·.2) (readAttributes before c) := by
  fun_induction readAttributes before c with
  | case1 before c slash | case2 before c slash => exact text_skipWhitespace text
  | case3 => rintro ⟨⟩
  | case4 before c _ _ _ _ e failed =>
    exact (readAttribute_leaves (text_skipWhitespace text)).of_error failed
  | case5 => rintro ⟨⟩
  | case6 before c _ _ _ _ name value after found shorter fresh ih =>
    exact ih ((readAttribute_leaves (text_skipWhitespace text)).of_ok found)

theorem startTag_leaves (text : IsUtf8 c.rest) : Leaves (·.2) (startTag c) := by
  unfold startTag
  refine (expect_leaves text (by decide)).bind fun c text => ?_
  dsimp only [id] at text
  split
  · rintro ⟨⟩
  · refine (readName_leaves text).bind ?_
    rintro ⟨tag, c⟩ text
    refine (readAttributes_leaves text).bind ?_
    rintro ⟨attributes, c⟩ text
    dsimp only at text ⊢
    refine (expect_leaves (text.passes (.skipOptional (by decide))) (by decide)).bind ?_
    exact fun _ text => text

theorem closingTag_leaves {tag : String} (text : IsUtf8 c.rest) : Leaves id (closingTag tag c) := by
  unfold closingTag
  refine (readName_leaves text).bind ?_
  rintro ⟨name, c⟩ text
  dsimp only
  split
  · exact expect_leaves (text_skipWhitespace text) (by decide)
  · rintro ⟨⟩

/-! ### Elements -/

theorem cdata_leaves (text : IsUtf8 c.rest) (start : c.startsWith "<![CDATA[" = true) :
    Leaves (·.2) (cdata c) := by
  have opened : IsUtf8 (c.advanceBy 9).rest := text.passes (.of_startsWith start (ascii_of_all rfl))
  have region : Spares (.grammar (.markup .utf8))
      (fun after => IsUtf8 (((c.advanceBy 9).upTo after).take
        (((c.advanceBy 9).upTo after).length - 3)) ∧ IsUtf8 after.rest)
      (skipPast (c.advanceBy 9) "]]>") := by
    cases passed : skipPast (c.advanceBy 9) "]]>" with
    | error e => exact (skipPast_leaves opened rfl (ascii_of_all rfl)).of_error passed
    | ok after =>
      obtain ⟨between, inner, -, split⟩ := exists_of_skipPast rfl (by decide) passed
      have ascii : ∀ b ∈ utf8 "]]>", b < 0x80 := ascii_of_all rfl
      rw [split] at opened
      obtain ⟨raw, last⟩ := opened.cut (.of_ascii (ascii 0x5D (by decide)) _)
      refine ⟨?_, last.behind ascii⟩
      have content : (between ++ utf8 "]]>").take (between.length + (utf8 "]]>").length - 3) =
          between := List.take_left' rfl
      rw [inner, List.length_append, content]
      exact raw
  unfold cdata
  exact region.bind fun after ⟨raw, last⟩ => (textOf_spares raw).bind fun _ _ => last

theorem plainText_leaves (text : IsUtf8 c.rest) : Leaves (·.2) (plainText c) := by
  obtain ⟨n, moved⟩ : c.MovesTo (c.advance.skipWhile (· != 0x3C)) :=
    MovesTo.advance.trans .skipWhile
  have stop : StartsCharacter (c.advance.skipWhile (· != 0x3C)).rest :=
    .of_stops (stops_skipWhile _ _) fun _ => ne_of_le (by decide)
  have raw : IsUtf8 (c.upTo (c.advance.skipWhile (· != 0x3C))) ∧
      IsUtf8 (c.advance.skipWhile (· != 0x3C)).rest := by
    rw [moved, rest_advanceBy] at stop
    rw [moved, upTo_advanceBy, rest_advanceBy]
    rw [← List.take_append_drop n c.rest] at text
    exact text.cut stop
  unfold plainText
  refine (textOf_spares raw.1).bind fun piece _ => (Entity.decode_spares piece).bind fun _ _ => ?_
  exact raw.2

theorem content_leaves {e : OpenElement} (text : IsUtf8 c.rest) : Leaves (·.2) (content e c) := by
  have begins := startsWith_opening c
  fun_induction content e c with
  | case1 => rintro ⟨⟩
  | case2 e c more pos mark =>
    rw [mark] at begins
    have opened : IsUtf8 (c.advanceBy 2).rest :=
      text.passes (.of_startsWith begins (ascii_of_all rfl))
    exact (closingTag_leaves opened).map fun _ text => text
  | case3 => exact text
  | case4 e c more pos mark err region =>
    rw [mark] at begins
    exact (skipRegion_leaves text begins (ascii_of_all rfl) rfl rfl
      (ascii_of_all rfl)).of_error region
  | case5 e c more pos mark after region shorter ih =>
    rw [mark] at begins
    exact ih ((skipRegion_leaves text begins (ascii_of_all rfl) rfl rfl
      (ascii_of_all rfl)).of_ok region) (startsWith_opening after)
  | case6 e c more pos mark err region =>
    rw [mark] at begins
    exact (skipRegion_leaves text begins (ascii_of_all rfl) rfl rfl
      (ascii_of_all rfl)).of_error region
  | case7 e c more pos mark after region shorter ih =>
    rw [mark] at begins
    exact ih ((skipRegion_leaves text begins (ascii_of_all rfl) rfl rfl
      (ascii_of_all rfl)).of_ok region) (startsWith_opening after)
  | case8 e c more pos mark err found =>
    rw [mark] at begins
    exact (cdata_leaves text begins).of_error found
  | case9 e c more pos mark piece after found shorter ih =>
    rw [mark] at begins
    exact ih ((cdata_leaves text begins).of_ok found) (startsWith_opening after)
  | case10 e c more pos mark err found => exact (plainText_leaves text).of_error found
  | case11 e c more pos mark piece after found shorter ih =>
    exact ih ((plainText_leaves text).of_ok found) (startsWith_opening after)

theorem inside_leaves {top : OpenElement} {below : List OpenElement} (text : IsUtf8 c.rest) :
    Leaves (·.2) (inside top below c) := by
  fun_induction inside top below c with
  | case1 top below c e found => exact (content_leaves text).of_error found
  | case2 top c e after found shorter => exact (content_leaves text).of_ok found
  | case3 top c e after found shorter parent rest ih => exact ih ((content_leaves text).of_ok found)
  | case4 => rintro ⟨⟩
  | case5 top below c e after found allowed err tag =>
    have after := (content_leaves text).of_ok found
    exact (startTag_leaves after).of_error tag
  | case6 top below c e after found allowed child next shorter tag ih =>
    have after := (content_leaves text).of_ok found
    exact ih ((startTag_leaves after).of_ok tag)
  | case7 top below c e after found allowed child empty next tag shorter more ih =>
    have after := (content_leaves text).of_ok found
    exact ih ((startTag_leaves after).of_ok tag)

theorem readElement_leaves (text : IsUtf8 c.rest) : Leaves (·.2) (readElement c) := by
  unfold readElement
  refine (startTag_leaves text).bind ?_
  rintro ⟨⟨root, empty⟩, c⟩ text
  dsimp only at text ⊢
  split
  · exact text
  · exact inside_leaves text

/-- A document may be malformed, but not because some bytes are no text. -/
theorem readText_spares (text : String) :
    Spares (.grammar (.markup .utf8)) (fun _ => True) (readText text) := by
  unfold readText read
  refine (skipProlog_leaves (.of_utf8 text)).bind fun c text => ?_
  refine (readElement_leaves text).bind ?_
  rintro ⟨root, c⟩ text
  refine (skipMisc_leaves text).bind fun c _ => ?_
  split
  · exact trivial
  · rintro ⟨⟩

end Markup

/-- Whatever characters a text has, no reader takes some of its bytes for less than whole ones:
not where tokens of scripts are read, nor the holes of format strings in them, nor data files, nor
documents. -/
theorem characters_whole (text : String) :
    (∀ e, Script.tokens (utf8 text) = .error e → e.cause ≠ .lexical .utf8) ∧
    (∀ levels room e, Script.Grammar.readHole levels room text = .error e →
      e.cause ≠ .lexical .utf8) ∧
    (∀ limits e, Script.Module.ofText limits text = .error e → e.cause ≠ .lexical .utf8) ∧
    (∀ comments e, (Json.Stream.ofBytes comments (utf8 text)).final = .error e →
      e.cause ≠ .lexical .utf8) ∧
    (∀ limits e, Json.ofBytes limits (utf8 text) = .error e → e.cause ≠ .lexical .utf8) ∧
    (∀ e, Markup.readText text = .error e → e.cause ≠ .grammar (.markup .utf8)) := by
  have tokens (text : String) := Script.tokens_ofText_fails text
  refine ⟨fun e => (tokens text).cause_ne, fun levels room e => ?_, fun limits e => ?_,
    fun comments => Json.Stream.isWhole_ofBytes comments text,
    fun limits e => (Json.ofBytes_spares limits text).of_error,
    fun e => (Markup.readText_spares text).of_error⟩
  · exact (Script.Grammar.readHole_fails tokens levels room text).cause_ne
  · exact (Script.Module.ofText_fails_of_tokens tokens limits text).cause_ne

/-- A quote before a character of two bytes: a string without an end, no value and no element. -/
theorem characters_whole_unclosed :
    (∃ e, Script.tokens (utf8 "'é") = .error e ∧ e.cause ≠ .lexical .utf8) ∧
    (∃ e, Script.Grammar.readHole 1 1 "'é" = .error e ∧ e.cause ≠ .lexical .utf8) ∧
    (∃ e, Script.Module.ofText Script.defaultLimits "'é" = .error e ∧ e.cause ≠ .lexical .utf8) ∧
    (∃ e, (Json.Stream.ofBytes true (utf8 "'é")).final = .error e ∧ e.cause ≠ .lexical .utf8) ∧
    (∃ e, Json.ofBytes Json.defaultLimits (utf8 "'é") = .error e ∧ e.cause ≠ .lexical .utf8) ∧
    ∃ e, Markup.readText "'é" = .error e ∧ e.cause ≠ .grammar (.markup .utf8) := by
  have failed {α : Type} {result : Except Error α} {cause : Cause}
      (holds : ∀ e, result = .error e → e.cause ≠ cause) (none : result.toOption.isNone = true) :
      ∃ e, result = .error e ∧ e.cause ≠ cause := by
    cases result with
    | ok a => cases none
    | error e => exact ⟨e, rfl, holds e rfl⟩
  obtain ⟨tokens, hole, script, stream, data, document⟩ := characters_whole "'é"
  exact ⟨failed tokens (by decide +kernel), failed (hole 1 1) (by decide +kernel),
    failed (script _) (by decide +kernel), failed (stream true) (by decide +kernel),
    failed (data _) (by decide +kernel), failed document (by decide +kernel)⟩

end ScoreScript
