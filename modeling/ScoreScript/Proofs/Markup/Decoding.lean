import ScoreScript.Proofs.Markup.Places
import ScoreScript.Proofs.Markup.Reference
import ScoreScript.Proofs.Text.Quoted

/-!
A document with a text that cannot be decoded is not read. Wherever the reader comes to a value in
quotes or to a text between tags, its references are replaced, and where that fails, reading the
whole document fails with the same error, whatever else stands in it. Main statement:
`decode_references`.
-/

namespace ScoreScript.Markup

open Cursor

/-- A value in quotes stands at the cursor. -/
def IsValueAt (raw : String) (c : Cursor) : Prop :=
  ∃ quote rest, (quote = 0x22 ∨ quote = 0x27) ∧ quote ∉ utf8 raw ∧
    c.rest = quote :: (utf8 raw ++ quote :: rest)

/-- A text stands at the cursor, up to the next tag or to the end. -/
def IsTextAt (raw : String) (c : Cursor) : Prop :=
  ∃ rest, raw ≠ "" ∧ 0x3C ∉ utf8 raw ∧ Stops (· != 0x3C) rest ∧ c.rest = utf8 raw ++ rest

/-- Reading attributes comes to a value. -/
inductive AttributesMeet (raw : String) : Assoc String → Cursor → Prop where
  | value {before : Assoc String} {c after behind : Cursor} {name : String}
    (named : readName c.skipWhitespace = .ok (name, after))
    (assigned : expect after.skipWhitespace '=' = .ok behind)
    (here : IsValueAt raw behind.skipWhitespace) : AttributesMeet raw before c
  | later {before : Assoc String} {c after : Cursor} {entry : String × String}
    (first : readAttribute c.skipWhitespace = .ok (entry, after))
    (fresh : before.contains entry.1 = false)
    (meets : AttributesMeet raw (before ++ [entry]) after) : AttributesMeet raw before c

mutual

/-- Reading an element that lies at a depth comes to a value or a text. -/
inductive ElementMeets (raw : String) : Nat → Cursor → Prop where
  | attribute {depth : Nat} {c inner after : Cursor} {tag : String} (room : depth ≤ maxDepth)
    (opened : expect c '<' = .ok inner) (opens : inner.look ≠ some '/')
    (named : readName inner = .ok (tag, after)) (meets : AttributesMeet raw [] after) :
    ElementMeets raw depth c
  | inside {depth : Nat} {c next : Cursor} {e : OpenElement} (room : depth ≤ maxDepth)
    (start : startTag c = .ok ((e, false), next)) (meets : BodyMeets raw depth e.tag next) :
    ElementMeets raw depth c

/-- Reading what is inside an element comes to a value or a text. -/
inductive BodyMeets (raw : String) : Nat → String → Cursor → Prop where
  | text {depth : Nat} {tag : String} {c : Cursor} (here : IsTextAt raw c) :
    BodyMeets raw depth tag c
  | child {depth : Nat} {tag : String} {c : Cursor} (mark : ContentMark.of c = .child)
    (meets : ElementMeets raw (depth + 1) c) : BodyMeets raw depth tag c
  | behindChild {depth : Nat} {tag : String} {c next : Cursor} {child : Element}
    (mark : ContentMark.of c = .child) (first : element (depth + 1) c = .ok (child, next))
    (meets : BodyMeets raw depth tag next) : BodyMeets raw depth tag c
  | behindPiece {depth : Nat} {tag : String} {c next : Cursor} {text : String}
    (more : c.isEnd = false) (inner : ContentMark.of c ≠ .closingTag ∧ ContentMark.of c ≠ .child)
    (first : piece (ContentMark.of c) c = .ok (text, next))
    (meets : BodyMeets raw depth tag next) : BodyMeets raw depth tag c

end

/-- Reading a document comes to a value or a text. -/
def DocumentMeets (raw document : String) : Prop :=
  ∃ c, skipProlog (.ofBytes (utf8 document)) = .ok c ∧ ElementMeets raw 1 c

section

variable {raw : String} {e : Error} {c : Cursor}

theorem error_bind {α β : Type} {result : Except Error α} (failed : result = .error e)
    (next : α → Except Error β) : result >>= next = .error e := by
  rw [failed]
  rfl

theorem bind_of_ok {α β : Type} {result : Except Error α} {a : α} (done : result = .ok a)
    (next : α → Except Error β) : result >>= next = next a := by
  rw [done]
  rfl

/-- The bytes up to a sign that does not occur among them are a text. -/
theorem skipWhile_until {bytes rest : List UInt8} {p : Pos} {sign : UInt8} (none : sign ∉ bytes)
    (stop : Stops (· != sign) rest) :
    (⟨bytes ++ rest, p⟩ : Cursor).skipWhile (· != sign) = ⟨rest, p.after bytes⟩ :=
  skipWhile_append bytes (fun _ member => bne_iff_ne.2 fun same => none (same ▸ member)) stop

theorem readValue_error (here : IsValueAt raw c) (failed : Entity.decode raw = .error e) :
    readValue c = .error e := by
  obtain ⟨quote, rest, isQuote, noQuote, split⟩ := here
  obtain ⟨_, p⟩ := c
  obtain rfl := split
  have closes : (⟨utf8 raw ++ quote :: rest, p.after [quote]⟩ : Cursor).skipWhile
      (· != quote) = ⟨quote :: rest, (p.after [quote]).after (utf8 raw)⟩ :=
    skipWhile_until noQuote (stops_cons (by simp))
  unfold readValue
  simp only [Cursor.current, List.head?_cons, isQuote, if_true, advance_cons, closes, upTo_append,
    textOf_utf8, Cursor.isEnd, List.isEmpty_cons, Bool.false_eq_true, if_false]
  exact error_bind failed _

theorem plainText_error (here : IsTextAt raw c) (failed : Entity.decode raw = .error e) :
    plainText c = .error e := by
  obtain ⟨rest, some_text, noTag, stop, split⟩ := here
  obtain ⟨_, p⟩ := c
  obtain rfl := split
  have passed : (⟨utf8 raw ++ rest, p⟩ : Cursor).advance.skipWhile (· != 0x3C) =
      ⟨rest, p.after (utf8 raw)⟩ := by
    cases bytes : utf8 raw with
    | nil => exact absurd bytes (utf8_ne_nil some_text)
    | cons b more =>
      rw [bytes] at noTag
      have noTag' : 0x3C ∉ more := fun member => noTag (.tail b member)
      rw [List.cons_append, advance_cons, skipWhile_until noTag' stop]
      rfl
  unfold plainText
  simp only [passed, upTo_append, textOf_utf8]
  exact error_bind failed _

theorem mark_of_isTextAt (here : IsTextAt raw c) : c.isEnd = false ∧ ContentMark.of c = .text := by
  obtain ⟨rest, some_text, noTag, -, split⟩ := here
  obtain ⟨_, p⟩ := c
  obtain rfl := split
  cases bytes : utf8 raw with
  | nil => exact absurd bytes (utf8_ne_nil some_text)
  | cons b more =>
    rw [bytes] at noTag
    exact ⟨rfl, mark_text fun same => noTag (same ▸ .head more)⟩

theorem not_isEnd_of_child (mark : ContentMark.of c = .child) : c.isEnd = false := by
  obtain ⟨bytes, p⟩ := c
  cases bytes with
  | nil => cases mark
  | cons b rest => rfl

theorem start_of_readName {name : String} {after : Cursor}
    (named : readName c = .ok (name, after)) : c.current.any isNameStart = true := by
  unfold readName at named
  split at named
  · assumption
  · cases named

theorem start_of_readAttribute {entry : String × String} {after : Cursor}
    (read : readAttribute c = .ok (entry, after)) : c.current.any isNameStart = true := by
  obtain ⟨⟨name, next⟩, named, -⟩ := ok_of_bind read
  exact start_of_readName named

/-- Where a name begins, the tag goes on with an attribute. -/
theorem readAttributes_of_start {before : Assoc String}
    (start : c.skipWhitespace.current.any isNameStart = true) :
    readAttributes before c = (do
      let (entry, after) ← readAttribute c.skipWhitespace
      if before.contains entry.1 then
        .error (.point (.grammar (.markup .repeatedAttribute)) after.pos)
      else readAttributes (before ++ [entry]) after) := by
  obtain ⟨b, here, starts⟩ := (Option.any_eq_true _ _).1 start
  have look : c.skipWhitespace.look = some (Char.ofUInt8 b) := by rw [Cursor.look, here]; rfl
  have noSign {sign : Char} (other : isNameStart sign.toUInt8 = false) :
      c.skipWhitespace.look ≠ some sign := by
    intro same
    have byte := current_of_look same
    rw [here, Option.some_inj] at byte
    rw [byte, other] at starts
    cases starts
  have noEnd : ¬c.skipWhitespace.isEnd = true := by
    rw [isEnd_iff_look, look]
    exact Option.some_ne_none _
  rw [readAttributes_step, if_neg (not_or.2 ⟨noSign (by decide), noSign (by decide)⟩), if_neg noEnd]

theorem readAttributes_error {before : Assoc String} (meets : AttributesMeet raw before c)
    (failed : Entity.decode raw = .error e) : readAttributes before c = .error e := by
  induction meets with
  | @value before c after behind name named assigned here =>
    have unread : readAttribute c.skipWhitespace = .error e := by
      unfold readAttribute
      rw [bind_of_ok named]
      change expect after.skipWhitespace '=' >>= _ = _
      rw [bind_of_ok assigned]
      exact error_bind (readValue_error here failed) _
    rw [readAttributes_of_start (start_of_readName named)]
    exact error_bind unread _
  | later first fresh _ ih =>
    rw [readAttributes_next (start_of_readAttribute first) first fresh]
    exact ih

theorem startTag_error {inner after : Cursor} {tag : String} (opened : expect c '<' = .ok inner)
    (opens : inner.look ≠ some '/') (named : readName inner = .ok (tag, after))
    (failed : readAttributes [] after = .error e) : startTag c = .error e := by
  unfold startTag
  rw [bind_of_ok opened, if_neg opens]
  change readName inner >>= _ = _
  rw [bind_of_ok named]
  exact error_bind failed _

mutual

/-- An element with a text that cannot be decoded is not read. -/
theorem element_error (failed : Entity.decode raw = .error e) : {depth : Nat} → {c : Cursor} →
    ElementMeets raw depth c → element depth c = .error e
  | depth, c, .attribute room opened opens named meets => by
    rw [element_eq, if_neg (Nat.not_lt.2 room)]
    exact error_bind (startTag_error opened opens named (readAttributes_error meets failed)) _
  | depth, c, .inside room start meets => by
    rw [element_eq, if_neg (Nat.not_lt.2 room), bind_of_ok start]
    exact error_bind (body_error failed meets) _

/-- Nor is what is inside an element. -/
theorem body_error (failed : Entity.decode raw = .error e) : {depth : Nat} → {tag : String} →
    {c : Cursor} → BodyMeets raw depth tag c → body depth tag c = .error e
  | depth, tag, c, .text here => by
    obtain ⟨more, mark⟩ := mark_of_isTextAt here
    rw [body_eq, more, mark]
    exact error_bind (plainText_error here failed) _
  | depth, tag, c, .child mark meets => by
    rw [body_eq, not_isEnd_of_child mark, mark]
    exact error_bind (element_error failed meets) _
  | depth, tag, c, .behindChild mark first meets => by
    rw [body_eq, not_isEnd_of_child mark, mark]
    exact (bind_of_ok first _).trans (error_bind (body_error failed meets) _)
  | depth, tag, c, .behindPiece more inner first meets => by
    rw [body_eq, more]
    simp only [Bool.false_eq_true, if_false]
    split
    · exact absurd ‹_› inner.1
    · exact absurd ‹_› inner.2
    · exact (bind_of_ok first _).trans (error_bind (body_error failed meets) _)

end

theorem readText_error {document : String} (meets : DocumentMeets raw document)
    (failed : Entity.decode raw = .error e) : readText document = .error e := by
  obtain ⟨c, prolog, meets⟩ := meets
  have unread : readElement c = .error e := by
    rw [readElement_eq]
    exact element_error failed meets
  rw [readText, read, bind_of_ok prolog]
  exact error_bind unread _

end

open Entity

/-- What is decoded has no ampersands but those of references and of numbers behind a plus sign. A
text without such numbers is decoded exactly if all its ampersands begin references, and each of
them becomes its character; and if a text is not decoded, no document is read that has it for a
value or between tags. -/
theorem decode_references (raw : String) :
    (∀ text, decode raw = .ok text ↔
      Replaces (fun name c => IsReference name c ∨ IsNumber ['+'] name c)
        raw.toList text.toList) ∧
    (Unsigned raw.toList →
      ((∃ text, decode raw = .ok text) ↔ AmpersandsBegin IsReference raw.toList) ∧
      ∀ text, decode raw = .ok text ↔ Replaces IsReference raw.toList text.toList) ∧
    ∀ e, decode raw = .error e →
      ∀ document, DocumentMeets raw document → readText document = .error e := by
  refine ⟨fun text => decode_eq_ok_iff, fun unsigned => ⟨?_, fun text => ?_⟩,
    fun e failed document meets => readText_error meets failed⟩
  · rw [← exists_replaces_iff IsReference.enclosed]
    constructor
    · rintro ⟨text, decoded⟩
      exact ⟨text.toList, (decode_eq_ok_iff_of_unsigned unsigned).1 decoded⟩
    · rintro ⟨result, replaced⟩
      refine ⟨String.ofList result, (decode_eq_ok_iff_of_unsigned unsigned).2 ?_⟩
      rwa [String.toList_ofList]
  · exact decode_eq_ok_iff_of_unsigned unsigned

/-- The text between the tags of this document has an ampersand that begins no reference. -/
theorem documentMeets_bogus : DocumentMeets "&bogus;" "<a>&bogus;</a>" := by
  have written : utf8 "<a>&bogus;</a>" =
      0x3C :: 0x61 :: 0x3E :: (utf8 "&bogus;" ++ utf8 "</a>") := by
    decide +kernel
  have opened := startTag_open (p := .start) (e := { tag := "a" }) (utf8 "&bogus;" ++ utf8 "</a>")
    ⟨by decide, nofun, by decide⟩
  refine ⟨_, ?_, .inside (by decide) opened (.text ⟨utf8 "</a>", by decide, by decide, ?_, rfl⟩)⟩
  · rw [written]
    exact skipProlog_element _ (by decide)
  · exact stops_cons (by decide)

theorem decode_references_bogus :
    Unsigned "&lt;fp&gt; &#x41;".toList ∧ decode "&lt;fp&gt; &#x41;" = .ok "<fp> A" ∧
    DocumentMeets "&bogus;" "<a>&bogus;</a>" ∧
    ∃ e, decode "&bogus;" = .error e ∧ readText "<a>&bogus;</a>" = .error e := by
  have unsigned : Unsigned "&lt;fp&gt; &#x41;".toList := ⟨by decide +kernel, by decide +kernel⟩
  have number : IsReference "#x41".toList 'A' :=
    .number (.hexadecimal (show Writes 16 ['4', '1'] _ from
      ⟨nofun, [4, 1], by decide, rfl, by decide⟩))
  have replaced : Replaces IsReference "&lt;fp&gt; &#x41;".toList "<fp> A".toList :=
    @Replaces.reference _ "lt".toList _ _ _ .lt (.plain (by decide) (.plain (by decide)
      (@Replaces.reference _ "gt".toList _ _ _ .gt (.plain (by decide)
        (@Replaces.reference _ "#x41".toList _ _ _ number .nil)))))
  have chars : "&bogus;".toList = ['&', 'b', 'o', 'g', 'u', 's', ';'] := rfl
  have failed : decode "&bogus;" = .error (.bare (.grammar (.entity "bogus"))) := by
    rw [decode, chars, decodeFrom.eq_def]
    rfl
  exact ⟨unsigned, (((decode_references _).2.1 unsigned).2 _).2 replaced, documentMeets_bogus, _,
    failed, (decode_references _).2.2 _ failed _ documentMeets_bogus⟩

theorem not_isReference_signed {digits : List Char} {c : Char} :
    ¬IsReference ('#' :: '+' :: digits) c := by
  intro reference
  generalize same : '#' :: '+' :: digits = name at reference
  cases reference with
  | amp | lt | gt | quot | apos => cases same
  | number number =>
    cases number with
    | decimal written =>
      cases same
      exact Writes.not_cons (by decide) (by decide) written
    | hexadecimal written => cases same

/-- A number behind a plus sign is decoded, but its ampersand begins no reference. -/
theorem decode_plusSign :
    decode "&#+65;" = .ok "A" ∧ ¬AmpersandsBegin IsReference "&#+65;".toList := by
  have signed : IsNumber ['+'] "#+65".toList 'A' :=
    .decimal (show Writes 10 ['6', '5'] _ from ⟨nofun, [6, 5], by decide, rfl, by decide⟩)
  have replaced : Replaces (fun name c => IsReference name c ∨ IsNumber ['+'] name c)
      "&#+65;".toList "A".toList := @Replaces.reference _ "#+65".toList _ _ _ (.inr signed) .nil
  refine ⟨decode_eq_ok_iff.2 replaced, fun begins => ?_⟩
  obtain ⟨name, c, rest, named, split⟩ := begins [] "#+65;".toList rfl
  have inside : ';' ∉ name := (IsReference.enclosed name c named).2
  have whole : "#+65".toList ++ ';' :: [] = name ++ ';' :: rest := split
  obtain ⟨rfl, -⟩ := append_cons_inj (by decide) inside whole
  exact not_isReference_signed named

end ScoreScript.Markup
