import ScoreScript.Json.Token
import ScoreScript.Proofs.Markup.Reference
import ScoreScript.Proofs.Text.Boundary

/-!
String literals. Between its quotes a literal writes one character after another: as it is, by a
letter behind a backslash, by four digits, or, if it has no number of four digits, by two
surrogates. Every text behind a quote is a literal without surrogates or has a fault; the reader
yields the text of the former and refuses the latter where the fault is, and surrogates are a fault
to it. Main statement: `Stream.read_literals`.
-/

namespace ScoreScript

namespace Json

open Cursor

/-! ### The written forms -/

/-- The letters that stand behind a backslash for a character. -/
def shortForms : List (Char × Char) :=
  [('"', '"'), ('\\', '\\'), ('/', '/'), ('b', '\x08'), ('f', '\x0C'), ('n', '\n'), ('r', '\r'),
    ('t', '\t')]

def IsHexDigit (c : Char) : Prop :=
  ∃ d < 16, c.toLower = Nat.digitChar d

/-- Four digits, and the number they write. -/
def WritesFour (digits : List Char) (n : Nat) : Prop :=
  digits.length = 4 ∧ Writes 16 digits n

/-- A character that is written as it is, or by an escape of its own. -/
inductive IsWritten : List Char → Char → Prop where
  | plain {c : Char} (printed : 0x20 ≤ c.toNat) (noQuote : c ≠ '"') (noSlash : c ≠ '\\') :
    IsWritten [c] c
  | short {letter c : Char} (form : (letter, c) ∈ shortForms) : IsWritten ['\\', letter] c
  | number {digits : List Char} {c : Char} (four : WritesFour digits c.toNat) :
    IsWritten ('\\' :: 'u' :: digits) c

/-- A character that is written by two surrogates. -/
inductive IsPair : List Char → Char → Prop where
  | mk {first second : List Char} {high low : Nat} {c : Char} (four : WritesFour first high)
    (four' : WritesFour second low) (isHigh : 0xD800 ≤ high ∧ high < 0xDC00)
    (isLow : 0xDC00 ≤ low ∧ low < 0xE000)
    (value : c.toNat = 0x10000 + (high - 0xD800) * 0x400 + (low - 0xDC00)) :
    IsPair ('\\' :: 'u' :: (first ++ '\\' :: 'u' :: second)) c

/-- All forms of a character. -/
def IsForm (written : List Char) (c : Char) : Prop :=
  IsWritten written c ∨ IsPair written c

/-- Characters written one after another. -/
inductive Spells (form : List Char → Char → Prop) : List Char → List Char → Prop where
  | nil : Spells form [] []
  | cons {written more : List Char} {c : Char} {cs : List Char} (first : form written c)
    (later : Spells form more cs) : Spells form (written ++ more) (c :: cs)

/-- The rest of a text in which a literal is not closed and does not go on: what is wrong, and what
stands before the place where it is. -/
inductive Fault : List Char → LexicalError → List Char → Prop where
  | unclosed : Fault [] .openString []
  | control {c : Char} {rest : List Char} (low : c.toNat < 0x20) :
    Fault (c :: rest) (.character c) []
  | unfinished : Fault ['\\'] .escape ['\\']
  | unknown {letter : Char} {rest : List Char} (noDigits : letter ≠ 'u')
    (noForm : ∀ c, (letter, c) ∉ shortForms) : Fault ('\\' :: letter :: rest) .escape ['\\']
  | digits {digits rest : List Char} (hex : ∀ c ∈ digits, IsHexDigit c) (fewer : digits.length < 4)
    (stop : ∀ c ∈ rest.head?, ¬IsHexDigit c) :
    Fault ('\\' :: 'u' :: (digits ++ rest)) .escape ('\\' :: 'u' :: digits)
  | surrogate {digits rest : List Char} {n : Nat} (four : WritesFour digits n)
    (range : 0xD800 ≤ n ∧ n < 0xE000) : Fault ('\\' :: 'u' :: (digits ++ rest)) .escape ['\\', 'u']

/-- A pair of surrogates is a fault. -/
theorem IsPair.fault {written : List Char} {c : Char} (pair : IsPair written c) (rest : List Char) :
    Fault (written ++ rest) .escape ['\\', 'u'] := by
  obtain ⟨four, -, isHigh, -, -⟩ := pair
  rw [List.cons_append, List.cons_append, List.append_assoc]
  exact .surrogate four ⟨isHigh.1, Nat.lt_trans isHigh.2 (by decide)⟩

/-! ### Every text -/

theorem isHexDigit_iff {c : Char} : IsHexDigit c ↔ ∃ d, digit? 16 c = some d := by
  simp only [IsHexDigit, digit?_eq_some_iff (Nat.le_refl 16)]

instance (c : Char) : Decidable (IsHexDigit c) :=
  decidable_of_iff ((digit? 16 c).isSome = true) (by rw [isHexDigit_iff, Option.isSome_iff_exists])

/-- Digits write a number. -/
theorem exists_writes {digits : List Char} (hex : ∀ c ∈ digits, IsHexDigit c) :
    ∃ values : List Nat, (∀ d ∈ values, d < 16) ∧
      digits.map Char.toLower = values.map Nat.digitChar := by
  induction digits with
  | nil => exact ⟨[], nofun, rfl⟩
  | cons c digits ih =>
    obtain ⟨⟨d, small, same⟩, later⟩ := List.forall_mem_cons.1 hex
    obtain ⟨values, all, more⟩ := ih later
    exact ⟨d :: values, List.forall_mem_cons.2 ⟨small, all⟩, by rw [List.map_cons, same, more]; rfl⟩

/-- Four digits write the number of a character or of a surrogate. -/
theorem four_digits {digits : List Char} (hex : ∀ c ∈ digits, IsHexDigit c)
    (four : digits.length = 4) :
    (∃ c : Char, WritesFour digits c.toNat) ∨
      ∃ n, WritesFour digits n ∧ 0xD800 ≤ n ∧ n < 0xE000 := by
  obtain ⟨values, small, same⟩ := exists_writes hex
  have length : values.reverse.length = 4 := by
    rw [List.length_reverse, ← List.length_map (f := Nat.digitChar), ← same, List.length_map, four]
  have less := Nat.ofDigits_lt_base_pow_length (b := 16) (l := values.reverse) (by decide)
    fun d member => small d (List.mem_reverse.1 member)
  rw [length] at less
  have written : WritesFour digits (Nat.ofDigits 16 values.reverse) :=
    ⟨four, List.ne_nil_of_length_pos (by omega), values, small, same, rfl⟩
  generalize Nat.ofDigits 16 values.reverse = n at less written
  by_cases valid : n.isValidChar
  · exact .inl ⟨Char.ofNatAux n valid, written⟩
  · refine .inr ⟨n, written, ?_⟩
    unfold Nat.isValidChar at valid
    omega

/-- What comes of an escape by digits. -/
theorem digits_cases (text : List Char) :
    (∃ written c rest, IsWritten written c ∧ written ≠ [] ∧
      '\\' :: 'u' :: text = written ++ rest) ∨
    ∃ cause place, Fault ('\\' :: 'u' :: text) cause place := by
  have hex : ∀ c ∈ text.takeWhile fun c => decide (IsHexDigit c), IsHexDigit c :=
    fun c member =>
      of_decide_eq_true (List.mem_takeWhile_imp (p := fun c => decide (IsHexDigit c)) member)
  have stop : ∀ c ∈ (text.dropWhile fun c => decide (IsHexDigit c)).head?, ¬IsHexDigit c := by
    intro c here
    have first := List.head?_dropWhile_not (fun c => decide (IsHexDigit c)) text
    rw [here] at first
    exact of_decide_eq_false first
  rw [← List.takeWhile_append_dropWhile (p := fun c => decide (IsHexDigit c)) (l := text)]
  generalize text.takeWhile (fun c => decide (IsHexDigit c)) = digits at hex
  generalize text.dropWhile (fun c => decide (IsHexDigit c)) = rest at stop
  by_cases fewer : digits.length < 4
  · exact .inr ⟨_, _, .digits hex fewer stop⟩
  · have length : (digits.take 4).length = 4 := by rw [List.length_take]; omega
    rw [← List.take_append_drop 4 digits, List.append_assoc]
    rcases four_digits (fun c member => hex c (List.mem_of_mem_take member)) length with
      ⟨c, written⟩ | ⟨n, written, range⟩
    · exact .inl ⟨_, c, _, .number written, List.cons_ne_nil _ _, rfl⟩
    · exact .inr ⟨_, _, .surrogate written range⟩

/-- What may stand at a place of a literal: a quote, a character, or a fault. -/
theorem literal_cases (text : List Char) :
    (∃ rest, text = '"' :: rest) ∨
    (∃ written c rest, IsWritten written c ∧ written ≠ [] ∧ text = written ++ rest) ∨
    ∃ cause place, Fault text cause place := by
  cases text with
  | nil => exact .inr (.inr ⟨_, _, .unclosed⟩)
  | cons c rest =>
    by_cases quote : c = '"'
    · exact .inl ⟨rest, by rw [quote]⟩
    · by_cases slash : c = '\\'
      · subst slash
        cases rest with
        | nil => exact .inr (.inr ⟨_, _, .unfinished⟩)
        | cons letter more =>
          by_cases noDigits : letter = 'u'
          · exact noDigits ▸ .inr (digits_cases more)
          · by_cases named : ∃ d, (letter, d) ∈ shortForms
            · obtain ⟨d, form⟩ := named
              exact .inr (.inl ⟨['\\', letter], d, more, .short form, List.cons_ne_nil _ _, rfl⟩)
            · exact .inr (.inr ⟨_, _, .unknown noDigits (not_exists.1 named)⟩)
      · by_cases low : c.toNat < 0x20
        · exact .inr (.inr ⟨_, _, .control low⟩)
        · exact .inr (.inl ⟨[c], c, rest, .plain (Nat.le_of_not_lt low) quote slash,
            List.cons_ne_nil _ _, rfl⟩)

/-- Every text is the rest of a literal that is closed, or of one with a fault. -/
theorem literal_or_fault (text : List Char) :
    ∃ written cs rest, Spells IsWritten written cs ∧ text = written ++ rest ∧
      ((∃ behind, rest = '"' :: behind) ∨ ∃ cause place, Fault rest cause place) := by
  induction length : text.length using Nat.strongRecOn generalizing text with
  | ind n ih =>
    subst length
    rcases literal_cases text with closes | ⟨written, c, rest, first, some_written, rfl⟩ | fault
    · exact ⟨[], [], text, .nil, rfl, .inl closes⟩
    · have shorter : rest.length < (written ++ rest).length := by
        have pos := List.length_pos_iff.2 some_written
        rw [List.length_append]
        omega
      obtain ⟨more, cs, left, later, rfl, ends⟩ := ih _ shorter rest rfl
      exact ⟨_, _, left, .cons first later, (List.append_assoc _ _ _).symm, ends⟩
    · exact ⟨[], [], text, .nil, rfl, .inr fault⟩

/-! ### Characters that are read -/

/-- The bytes of some characters. -/
def encoded (cs : List Char) : List UInt8 :=
  cs.flatMap String.utf8EncodeChar

theorem encoded_append (first second : List Char) :
    encoded (first ++ second) = encoded first ++ encoded second :=
  List.flatMap_append

theorem encoded_cons {c : Char} (ascii : c.toNat < 128) (cs : List Char) :
    encoded (c :: cs) = c.toUInt8 :: encoded cs := by
  rw [encoded, List.flatMap_cons, encode_of_ascii ascii]
  rfl

variable {rest : List UInt8} {p : Pos}

theorem stringRest_bytes {b : UInt8} (more rest : List UInt8) {bytes : List UInt8}
    (passed : List UInt8) (part : stringPart ⟨b :: (more ++ rest), p⟩ b =
      .ok (.bytes bytes more.length)) :
    stringRest ⟨b :: (more ++ rest), p⟩ passed =
      stringRest ⟨rest, p.after (b :: more)⟩ (bytes.reverse ++ passed) := by
  have behind : (⟨b :: (more ++ rest), p⟩ : Cursor).advanceBy (more.length + 1) =
      ⟨rest, p.after (b :: more)⟩ := advanceBy_append (b :: more) rfl
  rw [stringRest.eq_def ⟨b :: (more ++ rest), p⟩]
  simp only [part, behind]

theorem stringRest_error {b : UInt8} {passed : List UInt8} {e : Error}
    (failed : stringPart ⟨b :: rest, p⟩ b = .error e) :
    stringRest ⟨b :: rest, p⟩ passed = .error e := by
  rw [stringRest.eq_def ⟨b :: rest, p⟩]
  simp only [failed]

theorem shortForms_iff {letter c : Char} :
    (letter, c) ∈ shortForms ↔ escapeOf letter = some c := by
  constructor
  · intro form
    simp only [shortForms, List.mem_cons, Prod.mk.injEq, List.not_mem_nil, or_false] at form
    rcases form with ⟨rfl, rfl⟩ | ⟨rfl, rfl⟩ | ⟨rfl, rfl⟩ | ⟨rfl, rfl⟩ | ⟨rfl, rfl⟩ | ⟨rfl, rfl⟩ |
      ⟨rfl, rfl⟩ | ⟨rfl, rfl⟩ <;> rfl
  · intro named
    unfold escapeOf at named
    split at named <;> cases named <;> decide

/-- The digits of an escape are read, and then it goes on. -/
theorem hexValue_digits {digits : List Char} {values : List Nat} (small : ∀ d ∈ values, d < 16)
    (same : digits.map Char.toLower = values.map Nat.digitChar) (count value : Nat)
    (rest : List UInt8) :
    hexValue (digits.length + count) value ⟨encoded digits ++ rest, p⟩ =
      hexValue count (appended 16 value values) ⟨rest, p.after (encoded digits)⟩ := by
  induction digits generalizing values value p with
  | nil =>
    obtain rfl := List.map_eq_nil_iff.1 same.symm
    rw [List.length_nil, Nat.zero_add]
    rfl
  | cons c digits ih =>
    cases values with
    | nil => cases same
    | cons d values =>
      obtain ⟨first, later⟩ := List.cons.inj same
      obtain ⟨less, small⟩ := List.forall_mem_cons.1 small
      have digit : digit? 16 c = some d := (digit?_eq_some_iff (Nat.le_refl 16)).2 ⟨less, first⟩
      have ascii := ascii_of_digit? digit
      have found : (⟨c.toUInt8 :: (encoded digits ++ rest), p⟩ : Cursor).look.bind (digit? 16) =
          some d := by
        rw [look, current, List.head?_cons, Option.map_some, ofUInt8_toUInt8 ascii,
          Option.bind_some, digit]
      rw [encoded_cons ascii, List.length_cons, Nat.add_right_comm, List.cons_append, hexValue]
      simp only [found]
      rw [advance_cons, ih small later, ← Pos.after_append]
      rfl

/-- The bytes that stand for themselves. -/
def IsPlain (b : UInt8) : Prop :=
  0x20 ≤ b ∧ b ≠ 0x22 ∧ b ≠ 0x5C

theorem stringPart_plain {b : UInt8} {c : Cursor} (plain : IsPlain b) :
    stringPart c b = .ok (.bytes [b] 0) := by
  obtain ⟨printed, noQuote, noSlash⟩ := plain
  have byte {char : Char} (here : Char.ofUInt8 b = char) : b = char.toUInt8 := by
    rw [← here, toUInt8_ofUInt8]
  unfold stringPart
  split
  · rename_i quote
    exact absurd (byte quote) noQuote
  · rename_i slash
    exact absurd (byte slash) noSlash
  · rw [if_neg (UInt8.not_lt.2 printed)]

theorem stringRest_plain {bytes : List UInt8} (plain : ∀ b ∈ bytes, IsPlain b)
    (passed : List UInt8) :
    stringRest ⟨bytes ++ rest, p⟩ passed =
      stringRest ⟨rest, p.after bytes⟩ (bytes.reverse ++ passed) := by
  induction bytes generalizing p passed with
  | nil => rfl
  | cons b bytes ih =>
    obtain ⟨here, later⟩ := List.forall_mem_cons.1 plain
    have first := stringRest_bytes (p := p) [] (bytes ++ rest) passed (stringPart_plain here)
    rw [List.nil_append] at first
    rw [List.cons_append, first, ih later, ← Pos.after_append]
    simp

theorem encode_isPlain {c : Char} (printed : 0x20 ≤ c.toNat) (noQuote : c ≠ '"')
    (noSlash : c ≠ '\\') : ∀ b ∈ String.utf8EncodeChar c, IsPlain b := by
  intro b member
  by_cases narrow : c.toNat < 128
  · have apart (sign : Char) (small : sign.toNat < 128) (other : c ≠ sign) : b ≠ sign.toUInt8 := by
      rw [encode_of_ascii narrow, List.mem_singleton] at member
      rw [member]
      exact fun same => other (eq_of_toUInt8_eq narrow small same)
    refine ⟨?_, apart '"' (by decide) noQuote, apart '\\' (by decide) noSlash⟩
    rw [encode_of_ascii narrow, List.mem_singleton] at member
    have byte : c.toUInt8.toNat = c.toNat % 256 := rfl
    rw [member, UInt8.le_iff_toNat_le, byte, Nat.mod_eq_of_lt (by omega)]
    exact printed
  · have wide := le_of_mem_encode (Nat.le_of_not_lt narrow) member
    refine ⟨UInt8.le_trans (by decide) wide, ?_, ?_⟩
    · exact bne_iff_ne.1 (ne_of_le (by decide) wide)
    · exact bne_iff_ne.1 (ne_of_le (by decide) wide)

/-- Behind a backslash, a letter that does not ask for digits. -/
theorem stringPart_letter {letter : UInt8} (noDigits : Char.ofUInt8 letter ≠ 'u') :
    stringPart ⟨0x5C :: letter :: rest, p⟩ 0x5C =
      match escapeOf (Char.ofUInt8 letter) with
      | some char => .ok (.bytes (String.utf8EncodeChar char) 1)
      | none => .error (.point (.lexical .escape) (p.after [0x5C])) := by
  have looks : (⟨0x5C :: letter :: rest, p⟩ : Cursor).lookAt 1 = some (Char.ofUInt8 letter) := rfl
  have slash : Char.ofUInt8 0x5C = '\\' := rfl
  unfold stringPart
  simp only [slash, looks]
  generalize Char.ofUInt8 letter = l at noDigits
  cases escapeOf l <;> rfl

theorem stringPart_digits :
    stringPart ⟨0x5C :: 0x75 :: rest, p⟩ 0x5C =
      (unicodeEscape ⟨rest, p.after [0x5C, 0x75]⟩).map fun char =>
        .bytes (String.utf8EncodeChar char) 5 :=
  rfl

theorem unicodeEscape_four {digits : List Char} {n : Nat} (four : WritesFour digits n) :
    unicodeEscape ⟨encoded digits ++ rest, p⟩ =
      match char? n with
      | some char => .ok char
      | none => .error (.point (.lexical .escape) p) := by
  obtain ⟨length, -, values, small, same, rfl⟩ := four
  have read : hexValue _ 0 ⟨_, p⟩ = _ := hexValue_digits small same 0 0 rest
  rw [Nat.add_zero, length, appended_zero] at read
  unfold unicodeEscape
  rw [read]
  simp only [hexValue, bind, Except.bind]
  cases char? (Nat.ofDigits 16 values.reverse) <;> rfl

theorem IsHexDigit.ascii {c : Char} (hex : IsHexDigit c) : c.toNat < 128 := by
  obtain ⟨d, digit⟩ := isHexDigit_iff.1 hex
  exact ascii_of_digit? digit

theorem hex_of_writes {digits : List Char} {n : Nat} (written : Writes 16 digits n) :
    ∀ c ∈ digits, IsHexDigit c := by
  obtain ⟨-, values, small, same, -⟩ := written
  intro c member
  have lower := List.mem_map_of_mem (f := Char.toLower) member
  rw [same] at lower
  obtain ⟨d, inside, digit⟩ := List.mem_map.1 lower
  exact ⟨d, small d inside, digit.symm⟩

theorem length_encoded {cs : List Char} (ascii : ∀ c ∈ cs, c.toNat < 128) :
    (encoded cs).length = cs.length := by
  induction cs with
  | nil => rfl
  | cons c cs ih =>
    obtain ⟨first, later⟩ := List.forall_mem_cons.1 ascii
    rw [encoded_cons first, List.length_cons, ih later, List.length_cons]

theorem ascii_of_shortForms : ∀ form ∈ shortForms, form.1.toNat < 128 := by
  decide

theorem lt_of_escapeOf {letter char : Char} (named : escapeOf letter = some char) :
    letter.toNat < 128 :=
  ascii_of_shortForms _ (shortForms_iff.2 named)

/-- A character that is written is read. -/
theorem stringRest_written {written : List Char} {c : Char} (isWritten : IsWritten written c)
    (passed : List UInt8) :
    stringRest ⟨encoded written ++ rest, p⟩ passed =
      stringRest ⟨rest, p.after (encoded written)⟩
        ((String.utf8EncodeChar c).reverse ++ passed) := by
  cases isWritten with
  | plain printed noQuote noSlash =>
    rw [encoded, List.flatMap_singleton]
    exact stringRest_plain (encode_isPlain printed noQuote noSlash) passed
  | @short letter _ form =>
    have named := shortForms_iff.1 form
    have ascii := lt_of_escapeOf named
    have noDigits : letter ≠ 'u' := by
      rintro rfl
      cases named
    have part : stringPart ⟨0x5C :: letter.toUInt8 :: rest, p⟩ 0x5C = _ :=
      stringPart_letter (by rwa [ofUInt8_toUInt8 ascii])
    rw [ofUInt8_toUInt8 ascii, named] at part
    rw [encoded_cons (by decide), encoded_cons ascii]
    exact stringRest_bytes [letter.toUInt8] rest passed part
  | @number digits _ four =>
    have part : stringPart ⟨0x5C :: 0x75 :: (encoded digits ++ rest), p⟩ 0x5C = _ :=
      stringPart_digits
    have length := length_encoded fun c member => (hex_of_writes four.2 c member).ascii
    rw [unicodeEscape_four four, char?_eq_some_iff.2 rfl] at part
    rw [encoded_cons (by decide), encoded_cons (by decide)]
    refine stringRest_bytes (0x75 :: encoded digits) rest passed ?_
    rw [List.length_cons, length, four.1]
    exact part

theorem stringRest_spelled {written cs : List Char} (spells : Spells IsWritten written cs)
    (passed : List UInt8) :
    stringRest ⟨encoded written ++ rest, p⟩ passed =
      stringRest ⟨rest, p.after (encoded written)⟩ ((encoded cs).reverse ++ passed) := by
  induction spells generalizing p passed with
  | nil => rfl
  | @cons written more c cs first later ih =>
    rw [encoded_append, List.append_assoc, stringRest_written first, ih, ← Pos.after_append]
    simp [encoded]

/-- A byte shown as an ASCII character begins no other. -/
theorem ofUInt8_first {c : Char} {b : UInt8} {more : List UInt8}
    (bytes : String.utf8EncodeChar c = b :: more) (ascii : (Char.ofUInt8 b).toNat < 128) :
    Char.ofUInt8 b = c := by
  have narrow : c.toNat < 128 := by
    refine Nat.lt_of_not_le fun wide => ?_
    have beyond : 0x80 ≤ b := le_of_mem_encode wide (bytes ▸ List.mem_cons_self)
    exact absurd (ascii_of_ofUInt8 ascii) (UInt8.not_lt.2 beyond)
  rw [encode_of_ascii narrow] at bytes
  rw [← (List.cons.inj bytes).1, ofUInt8_toUInt8 narrow]

/-- Where no digit comes next, reading digits ends. -/
theorem hexValue_stop {text : List Char} (stop : ∀ c ∈ text.head?, ¬IsHexDigit c)
    (count value : Nat) :
    hexValue (count + 1) value ⟨encoded text, p⟩ = .error (.point (.lexical .escape) p) := by
  have none : (⟨encoded text, p⟩ : Cursor).look.bind (digit? 16) = none := by
    cases text with
    | nil => rfl
    | cons c text =>
      obtain ⟨b, more, bytes, -⟩ := exists_encode c
      rw [look, current, encoded, List.flatMap_cons, bytes]
      change digit? 16 (Char.ofUInt8 b) = none
      refine Option.eq_none_iff_forall_not_mem.2 fun d digit => stop c rfl ?_
      have same := ofUInt8_first bytes (ascii_of_digit? digit)
      exact isHexDigit_iff.2 ⟨d, same ▸ digit⟩
  rw [hexValue]
  simp only [none]
  rfl

theorem stringPart_control {c : Char} (low : c.toNat < 0x20) :
    stringPart ⟨c.toUInt8 :: rest, p⟩ c.toUInt8 =
      .error (.point (.lexical (.character c)) p) := by
  have byte : c.toUInt8 < 0x20 := by
    have wraps : c.toUInt8.toNat = c.toNat % 256 := rfl
    rw [UInt8.lt_iff_toNat_lt, wraps]
    exact Nat.lt_of_le_of_lt (Nat.mod_le _ _) low
  unfold stringPart
  rw [ofUInt8_toUInt8 (by omega)]
  split
  · exact absurd low (by decide)
  · exact absurd low (by decide)
  · rw [if_pos byte]
    rfl

/-- A letter that stands for nothing, told by its first byte. -/
theorem stringPart_unknown {letter : Char} {b : UInt8} {more : List UInt8}
    (noDigits : letter ≠ 'u') (noForm : ∀ c, (letter, c) ∉ shortForms)
    (bytes : String.utf8EncodeChar letter = b :: more) :
    stringPart ⟨0x5C :: b :: rest, p⟩ 0x5C =
      .error (.point (.lexical .escape) (p.after [0x5C])) := by
  have other : Char.ofUInt8 b ≠ 'u' := fun same =>
    noDigits ((ofUInt8_first bytes (by rw [same]; decide)).symm.trans same)
  have unnamed : escapeOf (Char.ofUInt8 b) = none := by
    refine Option.eq_none_iff_forall_not_mem.2 fun d named => noForm d ?_
    rw [← ofUInt8_first bytes (lt_of_escapeOf named)]
    exact shortForms_iff.2 named
  rw [stringPart_letter other, unnamed]

/-- Fewer than four digits are no escape, as is reported behind them. -/
theorem unicodeEscape_few {digits text : List Char} (hex : ∀ c ∈ digits, IsHexDigit c)
    (fewer : digits.length < 4) (stop : ∀ c ∈ text.head?, ¬IsHexDigit c) :
    unicodeEscape ⟨encoded digits ++ encoded text, p⟩ =
      .error (.point (.lexical .escape) (p.after (encoded digits))) := by
  obtain ⟨values, small, same⟩ := exists_writes hex
  have count : 4 = digits.length + (3 - digits.length + 1) := by omega
  unfold unicodeEscape
  rw [count, hexValue_digits small same, hexValue_stop stop]
  rfl

theorem char?_surrogate {n : Nat} (range : 0xD800 ≤ n ∧ n < 0xE000) : char? n = none := by
  refine Option.eq_none_iff_forall_not_mem.2 fun c known => ?_
  have valid : c.toNat.isValidChar := c.valid
  rw [char?_eq_some_iff.1 known] at valid
  unfold Nat.isValidChar at valid
  omega

/-- A fault is reported where it is. -/
theorem stringRest_fault {text place : List Char} {cause : LexicalError}
    (fault : Fault text cause place) (passed : List UInt8) :
    stringRest ⟨encoded text, p⟩ passed =
      .error (.point (.lexical cause) (p.after (encoded place))) := by
  cases fault with
  | unclosed =>
    rw [stringRest.eq_def]
    rfl
  | control low =>
    rw [encoded_cons (by omega)]
    exact stringRest_error (stringPart_control low)
  | unfinished => exact stringRest_error rfl
  | @unknown letter rest noDigits noForm =>
    obtain ⟨b, more, bytes, -⟩ := exists_encode letter
    rw [encoded_cons (by decide), encoded, List.flatMap_cons, bytes]
    exact stringRest_error (stringPart_unknown noDigits noForm bytes)
  | digits hex fewer stop =>
    rw [encoded_cons (by decide), encoded_cons (by decide), encoded_cons (by decide),
      encoded_cons (by decide), encoded_append]
    refine stringRest_error (stringPart_digits.trans ?_)
    rw [unicodeEscape_few hex fewer stop, ← Pos.after_append]
    rfl
  | surrogate four range =>
    rw [encoded_cons (by decide), encoded_cons (by decide), encoded_append]
    refine stringRest_error (stringPart_digits.trans ?_)
    rw [unicodeEscape_four four, char?_surrogate range]
    rfl

/-! ### Literals among other tokens -/

theorem skipIgnorable_quote (comments : Bool) (bytes : List UInt8) :
    skipIgnorable comments ⟨0x22 :: bytes, p⟩ = .ok ⟨0x22 :: bytes, p⟩ := by
  have stays : (⟨0x22 :: bytes, p⟩ : Cursor).skipWhitespace = ⟨0x22 :: bytes, p⟩ :=
    skipWhile_stop (stops_cons (by decide))
  have quote : (⟨0x22 :: bytes, p⟩ : Cursor).look = some '"' := rfl
  rw [skipIgnorable, dif_neg]
  · rw [stays]
  · rintro ⟨-, slash⟩
    rw [stays, quote] at slash
    cases slash

namespace Stream

/-- What a quote begins is a token if it is read as a string. -/
theorem read_quote (comments : Bool) (bytes : List UInt8) (before : List (Token TokenKind)) :
    read comments ⟨0x22 :: bytes, p⟩ before =
      match stringRest ⟨bytes, p.after [0x22]⟩ [] with
      | .ok (text, after) => read comments after (⟨.string text, ⟨p, after.pos⟩⟩ :: before)
      | .error e => ⟨before.reverse, .error e⟩ := by
  have kind : readKind ⟨0x22 :: bytes, p⟩ 0x22 =
      (stringRest ⟨bytes, p.after [0x22]⟩ []).map fun found => (.string found.1, found.2) := by
    rw [← advance_cons]
    change (stringRest _ [] >>= _) = _
    cases stringRest _ [] <;> rfl
  rw [read]
  split
  · rename_i ignored
    rw [skipIgnorable_quote] at ignored
    cases ignored
  · rename_i ignored
    rw [skipIgnorable_quote] at ignored
    cases ignored
    split
    · rename_i here
      cases here
    · rename_i here
      cases here
      split
      · rename_i failed
        rw [kind] at failed
        cases body : stringRest ⟨bytes, p.after [0x22]⟩ [] with
        | ok found =>
          rw [body] at failed
          cases failed
        | error e =>
          rw [body] at failed
          cases failed
          rfl
      · rename_i token
        rw [kind] at token
        cases body : stringRest ⟨bytes, p.after [0x22]⟩ [] with
        | ok found =>
          rw [body] at token
          cases token
          rfl
        | error e =>
          rw [body] at token
          cases token

/-- A literal is a token as long as itself. -/
theorem read_spelled (comments : Bool) {written cs : List Char}
    (spells : Spells IsWritten written cs) (rest : List UInt8) (before : List (Token TokenKind)) :
    read comments ⟨utf8 (String.ofList ('"' :: (written ++ ['"']))) ++ rest, p⟩ before =
      read comments ⟨rest, p.after (utf8 (String.ofList ('"' :: (written ++ ['"']))))⟩
        (⟨.string (String.ofList cs), p, p.after (utf8 (String.ofList ('"' :: (written ++ ['"']))))⟩
          :: before) := by
  have bytes : utf8 (String.ofList ('"' :: (written ++ ['"']))) =
      0x22 :: (encoded written ++ [0x22]) := by
    rw [utf8_ofList, ← encoded, encoded_cons (by decide), encoded_append]
    rfl
  have text : ofUtf8? (encoded cs) = some (String.ofList cs) := by
    rw [encoded, ← utf8_ofList, ofUtf8?_utf8]
  have closed (passed : List UInt8) (q : Pos) :
      stringRest ⟨0x22 :: rest, q⟩ passed = closeString passed ⟨rest, q.after [0x22]⟩ := by
    rw [stringRest.eq_def]
    rfl
  have body : stringRest ⟨encoded written ++ 0x22 :: rest, p.after [0x22]⟩ [] =
      .ok (String.ofList cs, ⟨rest, p.after (0x22 :: (encoded written ++ [0x22]))⟩) := by
    rw [stringRest_spelled spells, closed, closeString, List.append_nil, List.reverse_reverse, text,
      ← Pos.after_append, ← Pos.after_append]
    rfl
  rw [bytes, List.cons_append, List.append_assoc, List.singleton_append, read_quote, body]

/-- A fault ends the tokens. -/
theorem read_fault (comments : Bool) {written cs text place : List Char} {cause : LexicalError}
    (spells : Spells IsWritten written cs) (fault : Fault text cause place)
    (before : List (Token TokenKind)) :
    read comments ⟨utf8 (String.ofList ('"' :: (written ++ text))), p⟩ before =
      ⟨before.reverse, .error (.point (.lexical cause)
        (p.after (utf8 (String.ofList ('"' :: (written ++ place))))))⟩ := by
  have bytes (text : List Char) : utf8 (String.ofList ('"' :: (written ++ text))) =
      0x22 :: (encoded written ++ encoded text) := by
    rw [utf8_ofList, ← encoded, encoded_cons (by decide), encoded_append]
    rfl
  rw [bytes, bytes, read_quote, stringRest_spelled spells, stringRest_fault fault,
    ← Pos.after_append, ← Pos.after_append]
  rfl

/-- Whatever forms come before a fault, there is one behind forms without surrogates. -/
theorem fault_of_forms {written cs rest place : List Char} {cause : LexicalError}
    (spells : Spells IsForm written cs) (fault : Fault rest cause place) :
    ∃ written' cs' rest' cause' place', Spells IsWritten written' cs' ∧
      written ++ rest = written' ++ rest' ∧ Fault rest' cause' place' := by
  induction spells with
  | nil => exact ⟨[], [], rest, cause, place, .nil, rfl, fault⟩
  | @cons written more c cs first later ih =>
    rcases first with first | pair
    · obtain ⟨written', cs', rest', cause', place', spells, same, fault⟩ := ih
      refine ⟨_, _, rest', cause', place', .cons first spells, ?_, fault⟩
      rw [List.append_assoc, same, List.append_assoc]
    · exact ⟨[], [], _, _, _, .nil, List.append_assoc _ _ _, pair.fault _⟩

/-- Behind a quote, a text goes on as a literal without surrogates and is closed, and the token is
what the literal spells and stands from quote to quote; or it has a fault, and is refused there.
Whatever forms come before a fault, surrogates included, the text is refused. -/
theorem read_literals (comments : Bool) (p : Pos) (before : List (Token TokenKind)) :
    (∀ written cs rest, Spells IsWritten written cs →
      read comments ⟨utf8 (String.ofList ('"' :: (written ++ ['"']))) ++ rest, p⟩ before =
        read comments ⟨rest, p.after (utf8 (String.ofList ('"' :: (written ++ ['"']))))⟩
          (⟨.string (String.ofList cs), p,
            p.after (utf8 (String.ofList ('"' :: (written ++ ['"']))))⟩ :: before)) ∧
    (∀ written cs text cause place, Spells IsWritten written cs → Fault text cause place →
      read comments ⟨utf8 (String.ofList ('"' :: (written ++ text))), p⟩ before =
        ⟨before.reverse, .error (.point (.lexical cause)
          (p.after (utf8 (String.ofList ('"' :: (written ++ place))))))⟩) ∧
    (∀ written cs text cause place, Spells IsForm written cs → Fault text cause place →
      ∃ cause' q, read comments ⟨utf8 (String.ofList ('"' :: (written ++ text))), p⟩ before =
        ⟨before.reverse, .error (.point (.lexical cause') q)⟩) ∧
    ∀ text : List Char, ∃ written cs rest, Spells IsWritten written cs ∧ text = written ++ rest ∧
      ((∃ behind, rest = '"' :: behind) ∨ ∃ cause place, Fault rest cause place) := by
  refine ⟨fun written cs rest spells => read_spelled comments spells rest before,
    fun written cs text cause place spells fault => read_fault comments spells fault before,
    fun written cs text cause place spells fault => ?_, literal_or_fault⟩
  obtain ⟨written', cs', rest, cause', place', spells, same, fault⟩ := fault_of_forms spells fault
  exact ⟨cause', _, same ▸ read_fault comments spells fault before⟩

/-- A character as it is, by its number and by a letter; and a surrogate that stands alone. -/
theorem read_literals_mixed :
    Spells IsWritten ['é', '\\', 'u', '0', '0', 'E', '9', '\\', 'n'] ['é', 'é', '\n'] ∧
    Fault ['\\', 'u', 'd', '8', '3', '4', '"'] .escape ['\\', 'u'] ∧
    (∀ rest, read false ⟨utf8 "\"é\\u00E9\\n\"" ++ rest, .start⟩ [] =
      read false ⟨rest, ⟨12, 1, 12⟩⟩ [⟨.string "éé\n", .start, ⟨12, 1, 12⟩⟩]) ∧
    ofBytes false (utf8 "\"é\\u00E9\\n\\ud834\"") =
      ⟨[], .error (.point (.lexical .escape) ⟨13, 1, 13⟩)⟩ := by
  have plain : IsWritten ['é'] 'é' := .plain (by decide) (by decide) (by decide)
  have number : IsWritten ['\\', 'u', '0', '0', 'E', '9'] 'é' :=
    .number ⟨rfl, by decide, [0, 0, 14, 9], by decide, by decide, by decide⟩
  have short : IsWritten ['\\', 'n'] '\n' := .short (by decide)
  have spells : Spells IsWritten ['é', '\\', 'u', '0', '0', 'E', '9', '\\', 'n'] ['é', 'é', '\n'] :=
    .cons plain (.cons number (.cons short .nil))
  have four : WritesFour ['d', '8', '3', '4'] 0xD834 :=
    ⟨rfl, by decide, [13, 8, 3, 4], by decide, by decide, by decide⟩
  have fault : Fault ['\\', 'u', 'd', '8', '3', '4', '"'] .escape ['\\', 'u'] :=
    .surrogate four (by decide)
  obtain ⟨yields, refuses, -⟩ := read_literals false .start []
  refine ⟨spells, fault, fun rest => ?_, ?_⟩
  · have literal :
        String.ofList ('"' :: (['é', '\\', 'u', '0', '0', 'E', '9', '\\', 'n'] ++ ['"'])) =
        "\"é\\u00E9\\n\"" := rfl
    have stop : Pos.start.after (utf8 "\"é\\u00E9\\n\"") = ⟨12, 1, 12⟩ := by decide +kernel
    have text : String.ofList ['é', 'é', '\n'] = "éé\n" := rfl
    rw [← literal, yields _ _ rest spells, literal, stop, text]
  · have literal : String.ofList ('"' :: (['é', '\\', 'u', '0', '0', 'E', '9', '\\', 'n'] ++
        ['\\', 'u', 'd', '8', '3', '4', '"'])) = "\"é\\u00E9\\n\\ud834\"" := rfl
    have stop : Pos.start.after (utf8 (String.ofList ('"' :: (['é', '\\', 'u', '0', '0', 'E', '9',
        '\\', 'n'] ++ ['\\', 'u'])))) = ⟨13, 1, 13⟩ := by decide +kernel
    have refused := refuses _ _ _ _ _ spells fault
    rwa [literal, stop] at refused

/-- Two surrogates write a character beyond the first 65536, but they are refused. -/
theorem read_surrogates :
    Spells IsForm ['\\', 'u', 'd', '8', '3', '4', '\\', 'u', 'd', 'd', '1', 'e'] ['𝄞'] ∧
    ofBytes false (utf8 "\"\\ud834\\udd1e\"") =
      ⟨[], .error (.point (.lexical .escape) ⟨3, 1, 4⟩)⟩ := by
  have high : WritesFour ['d', '8', '3', '4'] 0xD834 :=
    ⟨rfl, by decide, [13, 8, 3, 4], by decide, by decide, by decide⟩
  have low : WritesFour ['d', 'd', '1', 'e'] 0xDD1E :=
    ⟨rfl, by decide, [13, 13, 1, 14], by decide, by decide, by decide⟩
  have pair : IsPair ['\\', 'u', 'd', '8', '3', '4', '\\', 'u', 'd', 'd', '1', 'e'] '𝄞' :=
    .mk high low (by decide) (by decide) (by decide)
  have form : IsForm ['\\', 'u', 'd', '8', '3', '4', '\\', 'u', 'd', 'd', '1', 'e'] '𝄞' := .inr pair
  exact ⟨.cons form .nil, read_fault false .nil (pair.fault ['"']) []⟩

end Stream

end Json

end ScoreScript
