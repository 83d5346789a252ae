import ScoreScript.Proofs.Printing.RoundTrip
import ScoreScript.Run.Basic

/-!
Bytes that are shown and read back. The literal of any bytes is read as one bytes literal, in which
every byte stands for the character with its number: an escape denotes a character in a bytes
literal too. So the bytes that are read are those of the characters, and they are the bytes that
were shown only where these are ASCII.
-/

namespace ScoreScript

namespace Script.Literal

open Cursor
open Value (byteText)

variable {rest : List UInt8} {p start : Pos}

/-- The form of a bytes literal whose backslashes are escapes. -/
def bytesForm : StringForm := ⟨.bytes, false⟩

/-- The bytes that a byte of a literal is written by. -/
def byteSpelling (b : UInt8) : List UInt8 :=
  (byteText b).flatMap String.utf8EncodeChar

/-- The bytes of the character with the number of a byte. -/
def byteMeaning (b : UInt8) : List UInt8 :=
  String.utf8EncodeChar (Char.ofUInt8 b)

/-- A byte is left as it is, or put behind a backslash, or written by its number. -/
theorem byteSpelling_cases (b : UInt8) :
    (byteSpelling b = [b] ∧ byteMeaning b = [b] ∧ Plain 0x27 b) ∨
      (byteSpelling b = [0x5C, b] ∧ ∀ rest p, escape ⟨b :: rest, p⟩ = .ok (byteMeaning b, 1)) ∨
      ∃ high low, byteSpelling b = [0x5C, 0x78, high, low] ∧
        number? 16 charLimit [Char.ofUInt8 high, Char.ofUInt8 low] =
          some (Char.ofUInt8 b).toNat := by
  have spelled : b = 0x5C ∨ b = 0x27 ∨
      (byteSpelling b = [b] ∧ byteMeaning b = [b] ∧ Plain 0x27 b) ∨
      (byteSpelling b = 0x5C :: 0x78 :: (Decimal.hexByte b).map Char.toUInt8 ∧
        number? 16 charLimit (((Decimal.hexByte b).map Char.toUInt8).map Char.ofUInt8) =
          some (Char.ofUInt8 b).toNat) :=
    forall_byte (P := fun b => b = 0x5C ∨ b = 0x27 ∨
      (byteSpelling b = [b] ∧ byteMeaning b = [b] ∧ b ≠ 0x27 ∧ b ≠ 0x0A ∧ b ≠ 0x0D ∧ b ≠ 0x5C) ∨
      (byteSpelling b = 0x5C :: 0x78 :: (Decimal.hexByte b).map Char.toUInt8 ∧
        number? 16 charLimit (((Decimal.hexByte b).map Char.toUInt8).map Char.ofUInt8) =
          some (Char.ofUInt8 b).toNat)) (by decide +kernel) b
  rcases spelled with rfl | rfl | plain | numbered
  · exact .inr (.inl ⟨by decide +kernel, fun _ _ => rfl⟩)
  · exact .inr (.inl ⟨by decide +kernel, fun _ _ => rfl⟩)
  · exact .inl plain
  · exact .inr (.inr ⟨_, _, numbered⟩)

theorem escape_hexadecimal {high low : UInt8} {char : Char}
    (number : number? 16 charLimit [Char.ofUInt8 high, Char.ofUInt8 low] = some char.toNat) :
    escape ⟨0x78 :: high :: low :: rest, p⟩ = .ok (String.utf8EncodeChar char, 3) := by
  have two : escape ⟨0x78 :: high :: low :: rest, p⟩ =
      numbered p (number? 16 charLimit [Char.ofUInt8 high, Char.ofUInt8 low]) 3 := rfl
  rw [two, number, numbered, Option.bind_some, char?_eq_some_iff.2 rfl]

/-- What a byte is written by is one part of the literal, for the character with its number. -/
theorem stringPart_byte (b : UInt8) (start : Pos) :
    ∃ first more, byteSpelling b = first :: more ∧ first ≠ 0x27 ∧ ∀ rest p,
      stringPart ⟨0x27, false⟩ bytesForm start ⟨first :: (more ++ rest), p⟩ first =
        .ok (.bytes (byteMeaning b) more.length) := by
  have slash {after : List UInt8} {p : Pos} {bytes : List UInt8} {length : Nat}
      (escaped : ∀ p, escape ⟨after, p⟩ = .ok (bytes, length)) :
      stringPart ⟨0x27, false⟩ bytesForm start ⟨0x5C :: after, p⟩ 0x5C =
        .ok (.bytes bytes length) := by
    simp [stringPart, bytesForm, advance_cons, escaped, Except.map]
  rcases byteSpelling_cases b with
    ⟨spelled, meant, noMark, noLine, noReturn, noSlash⟩ | ⟨spelled, escaped⟩ |
      ⟨high, low, spelled, number⟩
  · refine ⟨b, [], spelled, noMark, fun rest p => ?_⟩
    simp [stringPart, noMark, noLine, noReturn, noSlash, meant]
  · exact ⟨0x5C, [b], spelled, by decide, fun rest p => slash fun q => escaped rest q⟩
  · exact ⟨0x5C, [0x78, high, low], spelled, by decide,
      fun rest p => slash fun q => escape_hexadecimal number⟩

theorem stringRest_byteSpelling (start : Pos) (rest : List UInt8) :
    ∀ (bs : List UInt8) {p : Pos} (read : List UInt8),
      stringRest ⟨0x27, false⟩ bytesForm start ⟨bs.flatMap byteSpelling ++ rest, p⟩ read =
        stringRest ⟨0x27, false⟩ bytesForm start ⟨rest, p.after (bs.flatMap byteSpelling)⟩
          ((bs.flatMap byteMeaning).reverse ++ read)
  | [], _, _ => rfl
  | b :: bs, p, read => by
    obtain ⟨first, more, spelled, -, part⟩ := stringPart_byte b start
    rw [List.flatMap_cons, spelled, List.cons_append, List.cons_append, List.append_assoc,
      stringRest_bytes more _ read (part _ p), stringRest_byteSpelling start rest bs,
      List.flatMap_cons]
    simp [← Pos.after_append]

/-- The text of the characters with the numbers of the bytes. -/
def byteLetters (bs : List UInt8) : String :=
  String.ofList (bs.map Char.ofUInt8)

theorem utf8_byteLetters (bs : List UInt8) : utf8 (byteLetters bs) = bs.flatMap byteMeaning := by
  rw [byteLetters, utf8_ofList, List.flatMap_map]
  rfl

/-- The quotes of a bytes literal and what stands between them. -/
theorem readString_bytes (bs : List UInt8) (stop : Stops (fun b => b == 0x22 || b == 0x27) rest) :
    readString bytesForm ⟨0x27 :: (bs.flatMap byteSpelling ++ 0x27 :: rest), p⟩ =
      .ok (.string (byteLetters bs) .bytes,
        ⟨rest, p.after (0x27 :: (bs.flatMap byteSpelling ++ [0x27]))⟩) := by
  have first : ∀ b ∈ (bs.flatMap byteSpelling).head?, b ≠ (0x27 : UInt8) := by
    cases bs with
    | nil => exact nofun
    | cons b bs =>
      obtain ⟨first, more, spelled, other, -⟩ := stringPart_byte b p
      rw [List.flatMap_cons, spelled]
      rintro _ ⟨⟩
      exact other
  have body := stringRest_byteSpelling (p := p.after [0x27]) p (0x27 :: rest) bs []
  rw [List.append_nil, ← utf8_byteLetters] at body
  exact readString_between (.inr rfl) first stop body

theorem utf8_bytesText (bs : List UInt8) :
    utf8 (Value.bytesText bs) = 0x62 :: 0x27 :: (bs.flatMap byteSpelling ++ [0x27]) := by
  have quoted : "b'".toList.flatMap String.utf8EncodeChar = [0x62, 0x27] := by decide +kernel
  have closing : ['\''].flatMap String.utf8EncodeChar = [0x27] := by decide +kernel
  rw [Value.bytesText, utf8_ofList, List.flatMap_append, List.flatMap_append, quoted, closing,
    List.flatMap_assoc]
  rfl

end Script.Literal

namespace Script

open Literal (bytesForm byteLetters byteSpelling)

section

open Layout Cursor

variable {rest : List UInt8}

theorem readWord_bytes (bs : List UInt8) (noQuote : Stops isQuote rest) (p : Pos) :
    readWord ⟨utf8 (Value.bytesText bs) ++ rest, p⟩ =
      .ok (.string (byteLetters bs) .bytes, ⟨rest, p.after (utf8 (Value.bytesText bs))⟩) := by
  let quoted := 0x27 :: (bs.flatMap byteSpelling ++ 0x27 :: rest)
  have split : utf8 (Value.bytesText bs) ++ rest = [0x62] ++ quoted := by
    rw [Literal.utf8_bytesText]
    simp [quoted]
  have letter : ∀ b ∈ ([0x62] : List UInt8), Literal.isIdentByte b = true :=
    List.forall_mem_singleton.2 rfl
  have passed : (⟨[0x62] ++ quoted, p⟩ : Cursor).skipWhile Literal.isIdentByte =
      ⟨quoted, p.after [0x62]⟩ :=
    skipWhile_append _ letter (stops_cons (b := 0x27) rfl)
  have word : ofUtf8? [0x62] = some "b" := ofUtf8?_utf8 "b"
  have opened : (⟨quoted, p.after [0x62]⟩ : Cursor).look = some '\'' := rfl
  have form : Literal.formOf? "b" = some bytesForm := rfl
  rw [split]
  unfold readWord
  simp only [passed, upTo_append, word, opened, or_true, if_true, form]
  refine (Literal.readString_bytes bs noQuote).trans ?_
  rw [← Pos.after_append, Literal.utf8_bytesText]
  rfl

/-- The literal of bytes is a token if no quote follows. -/
theorem isToken_bytes (bs : List UInt8) (noQuote : Stops isQuote rest) :
    IsToken (utf8 (Value.bytesText bs)) rest (.string (byteLetters bs) .bytes) := by
  refine ⟨_, _, Literal.utf8_bytesText bs, isTokenStart_of_isIdentStart (by decide), fun p => ?_⟩
  rw [readToken_word (by decide)]
  exact readWord_bytes bs noQuote p

theorem Layout.IsPhrase.bytes (bs : List UInt8) :
    IsPhrase (Value.bytesText bs) [.string (byteLetters bs) .bytes] :=
  .of_token ⟨_, _, Literal.utf8_bytesText bs, by decide⟩ (fun _ => rfl) rfl fun _ _ ends =>
    isToken_bytes bs (stops_of_endsPhrase (by decide) ends)

end

end Script

namespace Value

open Script Literal

/-- Bytes are shown as one bytes literal, with a character for each of them. -/
theorem ofText_bytesText (bs : List UInt8) :
    ∃ place span, Script.Module.ofText .unlimited (Value.bytes bs).display =
      .ok ⟨[.expr (.constant (.bytes (bs.flatMap byteMeaning)) place) span]⟩ := by
  obtain ⟨tokens, lexed, kinds⟩ := Layout.tokens_phrase (Layout.IsPhrase.bytes bs)
    (.of_token (isToken_bytes bs nofun))
  have alone : tokens.map (·.kind) = [()].flatMap
      (fun _ => [.string (byteLetters bs) .bytes] ++ [.newline]) ++ [.eof] := by
    rw [kinds, List.flatMap_singleton]
  obtain ⟨⟨body⟩, read, same⟩ := Module.ofText_of_statements lexed alone fun hole _ _ =>
    .expr (Grammar.IsCallee.bytes (byteLetters bs)).operand
  rw [utf8_byteLetters] at same
  cases same with
  | cons one noMore =>
    cases noMore
    obtain ⟨_, span, rfl, place, rfl⟩ := one
    exact ⟨place, span, read⟩

theorem byteMeaning_cases (b : UInt8) :
    b < 0x80 ∧ byteMeaning b = [b] ∨ ¬b < 0x80 ∧ (byteMeaning b).length = 2 :=
  forall_byte (P := fun b => b < 0x80 ∧ byteMeaning b = [b] ∨
    ¬b < 0x80 ∧ (byteMeaning b).length = 2) (by decide +kernel) b

theorem length_le_flatMap_byteMeaning (bs : List UInt8) :
    bs.length ≤ (bs.flatMap byteMeaning).length := by
  induction bs with
  | nil => exact Nat.le_refl 0
  | cons b bs ih =>
    rw [List.flatMap_cons, List.length_append, List.length_cons]
    rcases byteMeaning_cases b with ⟨-, single⟩ | ⟨-, double⟩
    · rw [single, List.length_singleton]
      omega
    · omega

/-- A byte beyond ASCII becomes two. -/
theorem flatMap_byteMeaning_eq_iff (bs : List UInt8) :
    bs.flatMap byteMeaning = bs ↔ ∀ b ∈ bs, b < 0x80 := by
  induction bs with
  | nil => simp
  | cons b bs ih =>
    rw [List.flatMap_cons, List.forall_mem_cons]
    rcases byteMeaning_cases b with ⟨ascii, single⟩ | ⟨wide, double⟩
    · rw [single, List.singleton_append, List.cons_inj_right, ih]
      exact ⟨fun rest => ⟨ascii, rest⟩, fun all => all.2⟩
    · refine ⟨fun same => ?_, fun all => absurd all.1 wide⟩
      have longer := length_le_flatMap_byteMeaning bs
      have lengths := congrArg List.length same
      rw [List.length_append, double, List.length_cons] at lengths
      omega

theorem isAccepted_constant (value : Constant) (place span : Span) :
    (⟨[.expr (.constant value place) span]⟩ : Script.Module).verdict.isAccepted = true := by
  rw [Module.isAccepted_iff_isDeclarative]
  refine ⟨⟨trivial, trivial⟩, fun name shown => ?_⟩
  rw [← Module.mem_events_iff_shows] at shown
  change .call name ∈ (Trace.kind .module _ ++
    bodyEvents [.expr (.constant value place) span]).findings at shown
  simp [bodyEvents, Stmt.events, Expr.events] at shown

/-- Bytes are shown as a script that evaluates to bytes, though not always to the same: what is
read, whatever the run, are the bytes of the characters with their numbers. These are the bytes
that were shown exactly if all of them are ASCII. -/
theorem ofText_display_bytes (bs : List UInt8) :
    ∃ e span, Script.Module.ofText .unlimited (Value.bytes bs).display = .ok ⟨[.expr e span]⟩ ∧
      (⟨[.expr e span]⟩ : Script.Module).verdict.isAccepted = true ∧
      (∀ (kit : Kit) (s : Session),
        (Run.evaluate kit e).run s =
          (.ok (.bytes (bs.flatMap fun b => String.utf8EncodeChar (Char.ofUInt8 b))), s)) ∧
      ((bs.flatMap fun b => String.utf8EncodeChar (Char.ofUInt8 b)) = bs ↔ ∀ b ∈ bs, b < 0x80) := by
  obtain ⟨place, span, read⟩ := ofText_bytesText bs
  exact ⟨_, span, read, isAccepted_constant _ place span, fun kit s => rfl,
    flatMap_byteMeaning_eq_iff bs⟩

/-- A byte beyond ASCII is shown as a literal of another value. -/
theorem not_ofText_display_bytes :
    ¬∀ bs : List UInt8, ∃ e span,
      Script.Module.ofText .unlimited (Value.bytes bs).display = .ok ⟨[.expr e span]⟩ ∧
        ∀ (kit : Kit) (s : Session), (Run.evaluate kit e).run s = (.ok (.bytes bs), s) := by
  intro same
  obtain ⟨e, span, read, value⟩ := same [0xFF]
  obtain ⟨place, span', read'⟩ := ofText_bytesText [0xFF]
  rw [read] at read'
  cases read'
  have known : (Except.ok (Value.bytes ([0xFF].flatMap byteMeaning)), _) =
      ((.ok (.bytes [0xFF]), _) : Except Error Value × Session) :=
    value default ⟨.start (default : Kit).catalogue, .start default⟩
  injection known with known
  injection known with known
  injection known with known
  exact absurd ((flatMap_byteMeaning_eq_iff [0xFF]).1 known 0xFF (List.mem_singleton_self _))
    (by decide)

end Value

end ScoreScript
