import ScoreScript.Proofs.Source.Cursor
import ScoreScript.Proofs.Stateful
import ScoreScript.Proofs.Text.Utf8
import ScoreScript.Script.Literal
import ScoreScript.Value.Basic

/-!
String literals that are written and read back. Whatever a text holds, its literal is read as one
string token with that text, up to the closing quote and no further. What stands in a literal that
is read is told by what it is written by (`Part`, `Escaped`).
-/

namespace ScoreScript

/-- A character of a literal is left as it is, or a backslash is put before the letter that names
it. -/
theorem literalChar_cases {delimiter : Char} (mark : delimiter = '"' ∨ delimiter = '\'')
    (c : Char) :
    (literalChar delimiter c = [c] ∧ c ≠ '\\' ∧ c ≠ '\n' ∧ c ≠ '\r' ∧ c ≠ delimiter) ∨
      ∃ letter ∈ ['\\', 'n', 'r', 't', '"', '\''], literalChar delimiter c = ['\\', letter] ∧
        Script.Literal.escapeOf letter = some c := by
  unfold literalChar
  split
  · exact .inr ⟨'\\', by simp, rfl, rfl⟩
  · exact .inr ⟨'n', by simp, rfl, rfl⟩
  · exact .inr ⟨'r', by simp, rfl, rfl⟩
  · exact .inr ⟨'t', by simp, rfl, rfl⟩
  · rename_i noSlash noLine noReturn noTab
    split
    · rename_i same
      subst same
      rcases mark with rfl | rfl
      · exact .inr ⟨'"', by simp, rfl, rfl⟩
      · exact .inr ⟨'\'', by simp, rfl, rfl⟩
    · rename_i other
      exact .inl ⟨rfl, noSlash, noLine, noReturn, other⟩

theorem delimiterFor_cases (text : List Char) :
    delimiterFor text = '"' ∨ delimiterFor text = '\'' := by
  unfold delimiterFor
  split
  · exact .inl rfl
  · exact .inr rfl

namespace Script.Literal

open Cursor

variable {rest : List UInt8} {p start : Pos}

/-- The form of a literal without letters before its quotes. -/
def plainForm : StringForm := ⟨.text, false⟩

theorem stringRest_bytes {quotes : Quotes} {form : StringForm} {b : UInt8}
    (more rest : List UInt8) {bytes : List UInt8} (read : List UInt8)
    (part : stringPart quotes form start ⟨b :: (more ++ rest), p⟩ b =
      .ok (.bytes bytes more.length)) :
    stringRest quotes form start ⟨b :: (more ++ rest), p⟩ read =
      stringRest quotes form start ⟨rest, p.after (b :: more)⟩ (bytes.reverse ++ read) := by
  have passed : (⟨b :: (more ++ rest), p⟩ : Cursor).advanceBy (more.length + 1) =
      ⟨rest, p.after (b :: more)⟩ := advanceBy_append (b :: more) rfl
  rw [stringRest.eq_def quotes form start ⟨b :: (more ++ rest), p⟩]
  simp only [part, passed]

/-- The bytes that stand for themselves. -/
def Plain (mark b : UInt8) : Prop :=
  b ≠ mark ∧ b ≠ 0x0A ∧ b ≠ 0x0D ∧ b ≠ 0x5C

theorem stringRest_plain {mark : UInt8} :
    ∀ {bytes : List UInt8} {p : Pos} (read : List UInt8), (∀ b ∈ bytes, Plain mark b) →
      stringRest ⟨mark, false⟩ plainForm start ⟨bytes ++ rest, p⟩ read =
        stringRest ⟨mark, false⟩ plainForm start ⟨rest, p.after bytes⟩ (bytes.reverse ++ read)
  | [], _, _, _ => rfl
  | b :: bytes, p, read, plain => by
    obtain ⟨⟨noMark, noLine, noReturn, noSlash⟩, later⟩ := List.forall_mem_cons.1 plain
    have part : stringPart ⟨mark, false⟩ plainForm start ⟨b :: (bytes ++ rest), p⟩ b =
        .ok (.bytes [b] 0) := by
      simp [stringPart, noMark, noLine, noReturn, noSlash]
    have first := stringRest_bytes [] (bytes ++ rest) read part
    rw [List.nil_append] at first
    rw [List.cons_append, first, stringRest_plain _ later]
    simp [← Pos.after_append]

theorem encode_plain {mark c : Char} (ascii : mark.toNat < 128) (noSlash : c ≠ '\\')
    (noLine : c ≠ '\n') (noReturn : c ≠ '\r') (noMark : c ≠ mark) :
    ∀ b ∈ String.utf8EncodeChar c, Plain mark.toUInt8 b := by
  have apart {b : UInt8} (sign : Char) (small : sign.toNat < 128) (other : c ≠ sign)
      (member : b ∈ String.utf8EncodeChar c) : b ≠ sign.toUInt8 := by
    rintro rfl
    by_cases narrow : c.toNat < 128
    · rw [encode_of_ascii narrow, List.mem_singleton] at member
      exact other (eq_of_toUInt8_eq narrow small member.symm)
    · have wide := le_of_mem_encode (Nat.le_of_not_lt narrow) member
      have short : sign.toNat % 256 < 128 := Nat.lt_of_le_of_lt (Nat.mod_le _ _) small
      exact absurd (UInt8.le_iff_toNat_le.1 wide) (Nat.not_le.2 short)
  intro b member
  exact ⟨apart _ ascii noMark member, apart '\n' (by decide) noLine member,
    apart '\r' (by decide) noReturn member, apart '\\' (by decide) noSlash member⟩

theorem stringRest_escaped {mark : UInt8} (other : mark ≠ 0x5C) {letter c : Char}
    (known : letter ∈ ['\\', 'n', 'r', 't', '"', '\'']) (named : escapeOf letter = some c)
    (read : List UInt8) :
    stringRest ⟨mark, false⟩ plainForm start ⟨0x5C :: letter.toUInt8 :: rest, p⟩ read =
      stringRest ⟨mark, false⟩ plainForm start ⟨rest, p.after [0x5C, letter.toUInt8]⟩
        ((String.utf8EncodeChar c).reverse ++ read) := by
  have escaped {q : Pos} : escape ⟨letter.toUInt8 :: rest, q⟩ =
      .ok (String.utf8EncodeChar c, 1) := by
    simp only [List.mem_cons, List.not_mem_nil, or_false] at known
    rcases known with rfl | rfl | rfl | rfl | rfl | rfl <;> cases named <;> rfl
  have part : stringPart ⟨mark, false⟩ plainForm start ⟨0x5C :: letter.toUInt8 :: rest, p⟩ 0x5C =
      .ok (.bytes (String.utf8EncodeChar c) 1) := by
    simp [stringPart, other.symm, plainForm, advance_cons, escaped, Except.map]
  exact stringRest_bytes [letter.toUInt8] rest read part

/-- The characters of a literal are read as the bytes of the text. -/
theorem stringRest_written {delimiter : Char} (mark : delimiter = '"' ∨ delimiter = '\'')
    (start : Pos) (rest : List UInt8) : ∀ (text : List Char) {p : Pos} (read : List UInt8),
      let written := (text.flatMap (literalChar delimiter)).flatMap String.utf8EncodeChar
      stringRest ⟨delimiter.toUInt8, false⟩ plainForm start ⟨written ++ rest, p⟩ read =
        stringRest ⟨delimiter.toUInt8, false⟩ plainForm start ⟨rest, p.after written⟩
          ((text.flatMap String.utf8EncodeChar).reverse ++ read)
  | [], _, _ => rfl
  | c :: text, p, read => by
    have ascii : delimiter.toNat < 128 := by rcases mark with rfl | rfl <;> decide
    have other : delimiter.toUInt8 ≠ 0x5C := by rcases mark with rfl | rfl <;> decide
    simp only [List.flatMap_cons, List.flatMap_append, List.append_assoc]
    rcases literalChar_cases mark c with
      ⟨same, noSlash, noLine, noReturn, noMark⟩ | ⟨letter, known, escaped, named⟩
    · rw [same, List.flatMap_singleton,
        stringRest_plain _ (encode_plain ascii noSlash noLine noReturn noMark),
        stringRest_written mark start rest]
      simp [← Pos.after_append]
    · have small : ∀ letter ∈ ['\\', 'n', 'r', 't', '"', '\''], letter.toNat < 128 := by simp
      have bytes : ['\\', letter].flatMap String.utf8EncodeChar = [0x5C, letter.toUInt8] := by
        rw [List.flatMap_cons, List.flatMap_singleton, encode_of_ascii (small letter known),
          encode_of_ascii (by decide)]
        rfl
      rw [escaped, bytes, List.cons_append, List.singleton_append,
        stringRest_escaped other known named, stringRest_written mark start rest]
      simp [← Pos.after_append]

/-- What stands between the quotes does not begin with a quote. -/
theorem written_head {delimiter : Char} (mark : delimiter = '"' ∨ delimiter = '\'')
    (text : List Char) :
    ∀ b ∈ ((text.flatMap (literalChar delimiter)).flatMap String.utf8EncodeChar).head?,
      b ≠ delimiter.toUInt8 := by
  have ascii : delimiter.toNat < 128 := by rcases mark with rfl | rfl <;> decide
  have other : (0x5C : UInt8) ≠ delimiter.toUInt8 := by rcases mark with rfl | rfl <;> decide
  cases text with
  | nil => simp
  | cons c text =>
    intro b first
    rw [List.flatMap_cons, List.flatMap_append] at first
    rcases literalChar_cases mark c with
      ⟨same, noSlash, noLine, noReturn, noMark⟩ | ⟨letter, -, escaped, -⟩
    · rw [same, List.flatMap_singleton,
        List.head?_append_of_ne_nil _ String.utf8EncodeChar_ne_nil] at first
      exact (encode_plain ascii noSlash noLine noReturn noMark b (List.mem_of_mem_head? first)).1
    · have slash : String.utf8EncodeChar '\\' = [0x5C] := encode_of_ascii (by decide)
      rw [escaped, List.flatMap_cons, slash] at first
      cases first
      exact other

theorem utf8_quote (text : String) :
    let mark := (delimiterFor text.toList).toUInt8
    utf8 (quote text) = mark ::
      ((text.toList.flatMap (literalChar (delimiterFor text.toList))).flatMap
        String.utf8EncodeChar ++ [mark]) := by
  have ascii : (delimiterFor text.toList).toNat < 128 := by
    rcases delimiterFor_cases text.toList with same | same <;> rw [same] <;> decide
  simp only [quote, utf8_ofList, List.flatMap_append, List.flatMap_cons, encode_of_ascii ascii,
    List.flatMap_nil, List.append_nil]
  rfl

/-- A quote begins three in a row only if more quotes follow. -/
theorem peekBytes_ne {mark : UInt8} {written : List UInt8}
    (first : ∀ b ∈ written.head?, b ≠ mark) (last : ∀ b ∈ rest.head?, b ≠ mark) :
    (⟨mark :: (written ++ mark :: rest), p⟩ : Cursor).peekBytes 3 ≠ some [mark, mark, mark] := by
  cases written with
  | nil =>
    cases rest with
    | nil => simp [peekBytes]
    | cons b rest => simpa [peekBytes] using last b rfl
  | cons b written =>
    intro three
    have prefix_eq := (Option.ite_none_right_eq_some.1 three).2
    simp only [List.cons_append, List.take_succ_cons, Option.some.injEq, List.cons.injEq]
      at prefix_eq
    exact first b rfl prefix_eq.2.1

/-- A literal between single quotes is read up to the second, if its contents are and no quote
follows. -/
theorem readString_between {form : StringForm} {mark : UInt8} {written : List UInt8}
    {value : String} (quoted : mark = 0x22 ∨ mark = 0x27)
    (first : ∀ b ∈ written.head?, b ≠ mark)
    (stop : Stops (fun b => b == 0x22 || b == 0x27) rest)
    (body : stringRest ⟨mark, false⟩ form p ⟨written ++ mark :: rest, p.after [mark]⟩ [] =
      stringRest ⟨mark, false⟩ form p ⟨mark :: rest, (p.after [mark]).after written⟩
        (utf8 value).reverse) :
    readString form ⟨mark :: (written ++ mark :: rest), p⟩ =
      .ok (.string value form.kind, ⟨rest, p.after (mark :: (written ++ [mark]))⟩) := by
  have last : ∀ b ∈ rest.head?, b ≠ mark := by
    rintro b here rfl
    have none := stop _ here
    rcases quoted with rfl | rfl <;> exact absurd none (by decide)
  have closed {q : Pos} : stringRest ⟨mark, false⟩ form p ⟨mark :: rest, q⟩
      (utf8 value).reverse = .ok (.string value form.kind, ⟨rest, q.after [mark]⟩) := by
    rw [stringRest.eq_def]
    simp [stringPart, closeString, ofUtf8?_utf8, advanceBy, Pos.after]
  have entered : (⟨mark :: (written ++ mark :: rest), p⟩ : Cursor).advanceBy 1 =
      ⟨written ++ mark :: rest, p.after [mark]⟩ := advance_cons _
  unfold readString
  simp only [Cursor.current, List.head?_cons, beq_eq_false_iff_ne.2 (peekBytes_ne first last),
    Bool.false_eq_true, if_false, entered]
  refine body.trans (closed.trans ?_)
  rw [← Pos.after_append, ← Pos.after_append]
  rfl

/-- The literal of a text is read as that text, unless a quote follows. -/
theorem readString_quote (text : String) (stop : Stops (fun b => b == 0x22 || b == 0x27) rest) :
    readString plainForm ⟨utf8 (quote text) ++ rest, p⟩ =
      .ok (.string text .text, ⟨rest, p.after (utf8 (quote text))⟩) := by
  have mark := delimiterFor_cases text.toList
  have quoted : (delimiterFor text.toList).toUInt8 = 0x22 ∨
      (delimiterFor text.toList).toUInt8 = 0x27 := by
    rcases mark with same | same <;> rw [same] <;> decide
  have body := stringRest_written (p := p.after [(delimiterFor text.toList).toUInt8]) mark p
    ((delimiterFor text.toList).toUInt8 :: rest) text.toList []
  rw [List.append_nil] at body
  rw [utf8_quote, List.cons_append, List.append_assoc, List.singleton_append]
  exact readString_between quoted (written_head mark text.toList) stop body

/-! ### Parts of a literal -/

/-- What a backslash before the cursor stands for, and how many bytes are passed behind it. -/
inductive Escaped (c : Cursor) : List UInt8 → Nat → Prop where
  | feed (here : c.look = some '\n') : Escaped c [] 1
  | carriage (here : c.look = some '\r') : Escaped c [] 1
  | both (here : c.look = some '\r') (feed : c.lookAt 1 = some '\n') : Escaped c [] 2
  | letter {letter char : Char} (here : c.look = some letter)
    (named : escapeOf letter = some char) : Escaped c (String.utf8EncodeChar char) 1
  | hexadecimal {letter char : Char} {count : Nat} (here : c.look = some letter)
    (counted : hexCount letter = some count)
    (all : (((c.rest.drop 1).take count).map Char.ofUInt8).length = count)
    (number : number? 16 charLimit (((c.rest.drop 1).take count).map Char.ofUInt8) =
      some char.toNat) : Escaped c (String.utf8EncodeChar char) (count + 1)
  | octal {char : Char} {digits : List Char}
    (written : ((c.rest.take 3).map Char.ofUInt8).takeWhile (fun d => (digit? 8 d).isSome) = digits)
    (number : number? 8 charLimit digits = some char.toNat) :
    Escaped c (String.utf8EncodeChar char) digits.length
  /-- The backslash stands for itself. -/
  | unknown : Escaped c [0x5C] 0

variable {c : Cursor} {b : UInt8} {bytes : List UInt8} {quotes : Quotes} {form : StringForm}

theorem numbered_ok {n : Option Nat} {length length' : Nat}
    (done : numbered p n length = .ok (bytes, length')) :
    ∃ char, n = some char.toNat ∧ bytes = String.utf8EncodeChar char ∧ length' = length := by
  unfold numbered at done
  split at done <;> cases done
  rename_i char found
  obtain ⟨value, rfl, named⟩ := Option.bind_eq_some_iff.1 found
  exact ⟨char, congrArg some (char?_eq_some_iff.1 named).symm, rfl, rfl⟩

theorem escaped_of_escape {length : Nat} (done : escape c = .ok (bytes, length)) :
    Escaped c bytes length := by
  unfold escape at done
  split at done
  · cases done
  · rename_i here
    cases done
    exact .feed here
  · rename_i here
    cases done
    split
    · rename_i feed
      exact .both here feed
    · exact .carriage here
  · cases done
  · rename_i letter _ _ _ here
    split at done
    · rename_i char named
      cases done
      exact .letter here named
    · rename_i count _ counted
      obtain ⟨char, found, rfl, rfl⟩ := numbered_ok done
      obtain ⟨all, number⟩ := Option.ite_none_right_eq_some.1 found
      exact .hexadecimal here counted all number
    · dsimp only at done
      split at done
      · cases done
        exact .unknown
      · obtain ⟨char, found, rfl, rfl⟩ := numbered_ok done
        exact .octal rfl found

/-- A closing quote is the mark of the literal, tripled or not. -/
theorem close_of_stringPart {n : Nat}
    (read : stringPart quotes form start c b = .ok (.close n)) :
    b = quotes.mark ∧ (n = 1 ∨ n = 3 ∧ c.peekBytes 3 = some [b, b, b]) := by
  unfold stringPart at read
  split at read
  · rename_i mark
    refine ⟨mark, ?_⟩
    split at read
    · cases read
      exact .inl rfl
    · split at read <;> cases read
      exact .inr ⟨rfl, ‹_›⟩
  · split at read
    · cases read
    · split at read
      · split at read
        · split at read <;> cases read
        · obtain ⟨escaped, -, none⟩ := ok_of_map read
          cases none
      · cases read

/-- Bytes of the value of a literal, written by the byte `b` at the cursor and some more. -/
inductive Part (c : Cursor) (b : UInt8) : List UInt8 → Nat → Prop where
  | single : Part c b [b] 0
  | raw {next : UInt8} (second : c.peek 1 = some next) : Part c b [b, next] 1
  | escaped {bytes : List UInt8} {length : Nat} (slash : b = 0x5C)
    (escaped : Escaped c.advance bytes length) : Part c b bytes length

theorem part_of_stringPart {extra : Nat}
    (part : stringPart quotes form start c b = .ok (.bytes bytes extra)) :
    Part c b bytes extra := by
  unfold stringPart at part
  split at part
  · split at part
    · cases part
    · split at part <;> cases part
      exact .single
  · split at part
    · cases part
    · split at part
      · rename_i slash
        split at part
        · split at part
          · rename_i next second
            cases part
            exact .raw second
          · cases part
            exact .single
        · obtain ⟨⟨bytes, length⟩, done, ⟨⟩⟩ := ok_of_map part
          exact .escaped slash (escaped_of_escape done)
      · cases part
        exact .single

end Script.Literal

end ScoreScript
