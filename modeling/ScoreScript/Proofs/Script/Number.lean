import ScoreScript.Proofs.Markup.Reference
import ScoreScript.Proofs.Script.Ending
import ScoreScript.Proofs.Script.Spelling
import ScoreScript.Proofs.Text.Quoted

/-!
Whole numbers that are written and read back. The digits of a number are read as that number, and as
one token if nothing follows that would go on with it.

A numeral may be in any of four bases and have underscores among its digits. The reader takes the
whole of it for its value, whatever base it is in, and refuses the whole of it if the value has no
place in 63 bits (`readToken_numeral`). So no token of a script is a number without a place there
(`tokens_small`).
-/

namespace ScoreScript

/-! ### Digits -/

/-- The digits that a number is written by write it. -/
theorem writes_toDigits (n : Nat) : Writes 10 (Nat.toDigits 10 n) n := by
  have small : ∀ d < 10, (Nat.digitChar d).toLower = Nat.digitChar d := by decide
  refine ⟨List.ne_nil_of_length_pos Nat.length_toDigits_pos, ?_⟩
  induction n using Nat.strongRecOn with
  | ind n ih =>
    rw [Nat.toDigits_eq_if (by decide)]
    split
    · rename_i single
      exact ⟨[n], List.forall_mem_singleton.2 single, by simp [small n single], by simp⟩
    · obtain ⟨values, all, same, whole⟩ := ih (n / 10) (by omega)
      have last : n % 10 < 10 := Nat.mod_lt n (by decide)
      refine ⟨values ++ [n % 10], ?_, ?_, ?_⟩
      · intro d member
        rcases List.mem_append.1 member with inside | final
        · exact all d inside
        · rwa [List.mem_singleton.1 final]
      · simp [same, small _ last]
      · rw [List.reverse_append, List.reverse_singleton, List.singleton_append, Nat.ofDigits_cons,
          ← whole]
        exact (Nat.mod_add_div n 10).symm

theorem Writes.digit_of_mem {base n : Nat} (small : base ≤ 16) {digits : List Char}
    (written : Writes base digits n) {c : Char} (member : c ∈ digits) :
    ∃ d, digit? base c = some d := by
  obtain ⟨-, values, all, same, -⟩ := written
  have lower := List.mem_map_of_mem (f := Char.toLower) member
  rw [same] at lower
  obtain ⟨d, inside, digit⟩ := List.mem_map.1 lower
  exact ⟨d, (digit?_eq_some_iff small).2 ⟨all d inside, digit.symm⟩⟩

/-- Digits write one number only. -/
theorem Writes.unique {base m n : Nat} (pos : 0 < base) (small : base ≤ 16) {digits : List Char}
    (first : Writes base digits m) (second : Writes base digits n) : m = n := by
  have room : 0 < m + n + 1 := Nat.succ_pos _
  have readFirst := (number?_eq_some_iff pos small room).2 ⟨by omega, first⟩
  have readSecond := (number?_eq_some_iff pos small room).2 ⟨by omega, second⟩
  exact Option.some.inj (readFirst.symm.trans readSecond)

theorem number?_of_writes {base limit n : Nat} (pos : 0 < base) (small : base ≤ 16)
    (room : 0 < limit) {digits : List Char} (written : Writes base digits n) :
    number? base limit digits = if n < limit then some n else none := by
  split
  · rename_i less
    exact (number?_eq_some_iff pos small room).2 ⟨less, written⟩
  · rename_i large
    rw [Option.eq_none_iff_forall_ne_some]
    intro m read
    obtain ⟨less, other⟩ := (number?_eq_some_iff pos small room).1 read
    exact large (written.unique pos small other ▸ less)

theorem digitsFrom?_below {base limit before n : Nat} (less : before < limit) {digits : List Char}
    (read : digitsFrom? base limit before digits = some n) : n < limit := by
  induction digits generalizing before with
  | nil =>
    cases read
    exact less
  | cons c digits ih =>
    obtain ⟨d, -, more⟩ := Option.bind_eq_some_iff.1 read
    obtain ⟨below, more⟩ := Option.ite_none_right_eq_some.1 more
    exact ih below more

theorem number?_below {base limit n : Nat} (room : 0 < limit) {digits : List Char}
    (read : number? base limit digits = some n) : n < limit :=
  digitsFrom?_below room (Option.ite_none_left_eq_some.1 read).2

theorem digit?_sixteen {base d : Nat} (small : base ≤ 16) {c : Char}
    (digit : digit? base c = some d) : digit? 16 c = some d := by
  obtain ⟨less, lower⟩ := (digit?_eq_some_iff small).1 digit
  exact (digit?_eq_some_iff (Nat.le_refl 16)).2 ⟨by omega, lower⟩

namespace Script

open Cursor

/-! ### Numerals -/

/-- The letters that stand behind a zero for a base. -/
def baseLetters : Nat → List Char
  | 2 => ['b', 'B']
  | 8 => ['o', 'O']
  | 16 => ['x', 'X']
  | _ => []

/-- Digits of a base with underscores among them, and the number they write. -/
def WritesSpaced (base : Nat) (body : List Char) (n : Nat) : Prop :=
  Writes base (body.filter (· ≠ '_')) n

/-- A numeral of a base, and its value. Behind the letter of a base underscores may stand anywhere,
and else anywhere but in front. -/
inductive IsNumeral : Nat → List Char → Nat → Prop where
  | decimal {body : List Char} {n : Nat} (first : body.head? ≠ some '_')
    (written : WritesSpaced 10 body n) : IsNumeral 10 body n
  | lettered {base : Nat} {letter : Char} {body : List Char} {n : Nat}
    (mark : letter ∈ baseLetters base) (written : WritesSpaced base body n) :
    IsNumeral base ('0' :: letter :: body) n

/-- A number that is written is a numeral. -/
theorem isNumeral_toString (n : Nat) : IsNumeral 10 (toString n).toList n := by
  have plain : ∀ c ∈ Nat.toDigits 10 n, c ≠ '_' := by
    intro c member
    obtain ⟨d, small, rfl⟩ := mem_toDigits (by decide) member
    exact (by decide : ∀ d < 10, Nat.digitChar d ≠ '_') d small
  have chars : (toString n).toList = Nat.toDigits 10 n := String.toList_ofList
  rw [chars]
  refine .decimal (fun underscore => ?_) ?_
  · exact plain '_' (List.mem_of_mem_head? underscore) rfl
  · rw [WritesSpaced, List.filter_eq_self.2 fun c member => decide_eq_true (plain c member)]
    exact writes_toDigits n

namespace Literal

/-- A base that scripts have numerals in. -/
theorem baseLetters_cases {base : Nat} {letter : Char} (mark : letter ∈ baseLetters base) :
    base = 2 ∧ (letter = 'b' ∨ letter = 'B') ∨ base = 8 ∧ (letter = 'o' ∨ letter = 'O') ∨
      base = 16 ∧ (letter = 'x' ∨ letter = 'X') := by
  unfold baseLetters at mark
  split at mark <;> simp at mark <;> simp [mark]

theorem isBaseByte_of_digit {c : Char} (ascii : c.toNat < 128) :
    (digit? 16 c).isSome ∨ c = '_' → isBaseByte c.toUInt8 = true :=
  of_ascii (P := fun c => (digit? 16 c).isSome ∨ c = '_' → isBaseByte c.toUInt8 = true)
    (by decide) ascii

theorem isDigit_of_digit {c : Char} (ascii : c.toNat < 128) :
    (digit? 10 c).isSome → isDigit c.toUInt8 = true :=
  of_ascii (P := fun c => (digit? 10 c).isSome → isDigit c.toUInt8 = true) (by decide) ascii

variable {base n : Nat} {body : List Char}

theorem digit_of_mem_body (small : base ≤ 16) (written : WritesSpaced base body n) {c : Char}
    (member : c ∈ body) : (digit? base c).isSome ∨ c = '_' := by
  by_cases underscore : c = '_'
  · exact .inr underscore
  · have kept : c ∈ body.filter (· ≠ '_') :=
      List.mem_filter.2 ⟨member, decide_eq_true underscore⟩
    obtain ⟨d, digit⟩ := written.digit_of_mem small kept
    exact .inl (by rw [digit]; rfl)

theorem sixteen_of_mem_body (small : base ≤ 16) (written : WritesSpaced base body n) {c : Char}
    (member : c ∈ body) : c.toNat < 128 ∧ ((digit? 16 c).isSome ∨ c = '_') := by
  rcases digit_of_mem_body small written member with digit | rfl
  · obtain ⟨d, digit⟩ := Option.isSome_iff_exists.1 digit
    have digit := digit?_sixteen small digit
    exact ⟨ascii_of_digit? digit, .inl (by rw [digit]; rfl)⟩
  · exact ⟨by decide, .inr rfl⟩

/-- Every character of a numeral is ASCII. -/
theorem ascii_of_numeral {written : List Char} (numeral : IsNumeral base written n) :
    ∀ c ∈ written, c.toNat < 128 := by
  intro c member
  cases numeral with
  | decimal first spaced => exact (sixteen_of_mem_body (by decide) spaced member).1
  | lettered mark spaced =>
    have known := baseLetters_cases mark
    rcases List.mem_cons.1 member with rfl | member
    · decide
    · rcases List.mem_cons.1 member with rfl | member
      · rcases known with ⟨-, rfl | rfl⟩ | ⟨-, rfl | rfl⟩ | ⟨-, rfl | rfl⟩ <;> decide
      · exact (sixteen_of_mem_body (by omega) spaced member).1

/-- What a numeral denotes, behind the mark of its base. -/
theorem numberKind_numeral {written : List Char} (numeral : IsNumeral base written n) :
    numberKind base false written = if n < twoTo 63 then some (.int n) else none := by
  have room : 0 < twoTo 63 := by decide
  have int {digits : List Char} (pos : 0 < base) (small : base ≤ 16)
      (writes : Writes base digits n) :
      int? base digits = if n < twoTo 63 then some (.int n) else none := by
    rw [int?, number?_of_writes pos small room writes]
    split <;> rfl
  cases numeral with
  | decimal first spaced => exact int (by decide) (by decide) spaced
  | @lettered base letter body n mark spaced =>
    have known := baseLetters_cases mark
    have kept : ('0' :: letter :: body).filter (· ≠ '_') =
        '0' :: letter :: body.filter (· ≠ '_') := by
      rcases known with ⟨-, rfl | rfl⟩ | ⟨-, rfl | rfl⟩ | ⟨-, rfl | rfl⟩ <;> rfl
    have notTen : base ≠ 10 := by omega
    rw [numberKind, kept]
    simp only [Bool.false_eq_true, if_false, if_neg notTen]
    exact int (by omega) (by omega) spaced

end Literal

/-! ### Where a numeral ends -/

/-- The bytes that go on with a number. -/
def isNumberByte (b : UInt8) : Bool :=
  Literal.isIdentByte b || b == 0x2E

namespace Literal

variable {rest : List UInt8} {p : Pos}

theorem isNumberByte_of_look {c : Cursor} {sign : Char} (h : c.look = some sign)
    (stop : Stops isNumberByte c.rest) : isNumberByte sign.toUInt8 = false :=
  stop _ (current_of_look h)

variable {digits : List UInt8}

theorem decimalEnd_digits (all : ∀ b ∈ digits, isDigitByte b = true)
    (stop : Stops isNumberByte rest) :
    decimalEnd ⟨digits ++ rest, p⟩ = .ok (⟨rest, p.after digits⟩, false) := by
  have ended : Stops isDigitByte rest := fun b first => by
    have other := stop b first
    simp only [isNumberByte, isIdentByte, isIdentStart, Bool.or_eq_false_iff] at other
    rw [isDigitByte, other.1.2, other.1.1.1.2]
    rfl
  have noPoint : fraction ⟨rest, p.after digits⟩ = none := by
    have other : (⟨rest, p.after digits⟩ : Cursor).current ≠ some 0x2E := fun here =>
      absurd (stop _ here) (by decide)
    rw [fraction, consume?, if_neg other]
    rfl
  have noExponent : exponent ⟨digits ++ rest, p⟩ ⟨rest, p.after digits⟩ = .ok none := by
    rw [exponent, if_neg]
    rintro (here | here) <;> exact absurd (isNumberByte_of_look here stop) (by decide)
  unfold decimalEnd
  simp only [skipWhile_append _ all ended, noPoint, Option.getD_none, noExponent, bind,
    Except.bind, pure, Except.pure]
  rfl

/-- Digits are not the mark of a base. -/
theorem baseOf_digits (all : ∀ b ∈ digits, isDigitByte b = true) (present : digits ≠ [])
    (stop : Stops isNumberByte rest) : baseOf ⟨digits ++ rest, p⟩ = 10 := by
  have plain (sign : Char) (h : (⟨digits ++ rest, p⟩ : Cursor).lookAt 1 = some sign) :
      isDigitByte sign.toUInt8 = true ∨ isNumberByte sign.toUInt8 = false := by
    obtain ⟨b, here, rfl⟩ := Option.map_eq_some_iff.1 h
    obtain ⟨first, more, rfl⟩ := List.exists_cons_of_ne_nil present
    rw [Cursor.peek] at here
    rw [toUInt8_ofUInt8]
    cases more with
    | nil => exact .inr (stop b (by rw [List.head?_eq_getElem?]; exact here))
    | cons second more =>
      cases here
      exact .inl (all b (by simp))
  unfold baseOf
  split
  · split <;> first
      | rfl
      | (rename_i sign; rcases plain _ sign with digit | other <;> contradiction)
  · rfl

theorem ended_of_stops (stop : Stops isNumberByte rest) :
    (⟨rest, p⟩ : Cursor).current.any isIdentByte = false := by
  cases rest with
  | nil => rfl
  | cons b rest =>
    have other := stop b rfl
    rw [isNumberByte, Bool.or_eq_false_iff] at other
    exact other.1

variable {base n : Nat} {body : List Char}

theorem isDigitByte_of_spaced (spaced : WritesSpaced 10 body n) :
    ∀ b ∈ body.map Char.toUInt8, isDigitByte b = true := by
  intro b inside
  obtain ⟨c, member, rfl⟩ := List.mem_map.1 inside
  rcases digit_of_mem_body (by decide) spaced member with digit | rfl
  · have ascii := (sixteen_of_mem_body (by decide) spaced member).1
    rw [isDigitByte, isDigit_of_digit ascii digit, Bool.true_or]
  · rfl

theorem isBaseByte_of_spaced (small : base ≤ 16) (spaced : WritesSpaced base body n) :
    ∀ b ∈ body.map Char.toUInt8, isBaseByte b = true := by
  intro b inside
  obtain ⟨c, member, rfl⟩ := List.mem_map.1 inside
  obtain ⟨ascii, digit⟩ := sixteen_of_mem_body small spaced member
  exact isBaseByte_of_digit ascii digit

theorem stops_isBaseByte (stop : Stops isNumberByte rest) : Stops isBaseByte rest := by
  intro b first
  have other := stop b first
  rw [isNumberByte, Bool.or_eq_false_iff] at other
  rw [isBaseByte, other.1, Bool.and_false]

/-- A numeral ends where the bytes begin that go on with no number. -/
theorem end_of_numeral {written : List Char} (numeral : IsNumeral base written n)
    (stop : Stops isNumberByte rest) :
    baseOf ⟨written.map Char.toUInt8 ++ rest, p⟩ = base ∧
      numberEnd ⟨written.map Char.toUInt8 ++ rest, p⟩ =
        .ok (⟨rest, p.after (written.map Char.toUInt8)⟩, false) := by
  cases numeral with
  | decimal first spaced =>
    have all := isDigitByte_of_spaced spaced
    have present : written.map Char.toUInt8 ≠ [] := by
      rintro none
      obtain rfl := List.map_eq_nil_iff.1 none
      exact spaced.1 rfl
    have ten := baseOf_digits (p := p) all present stop
    refine ⟨ten, ?_⟩
    rw [numberEnd, if_pos ten]
    exact decimalEnd_digits all stop
  | @lettered base letter body n mark spaced =>
    have known := baseLetters_cases mark
    have found : baseOf ⟨('0' :: letter :: body).map Char.toUInt8 ++ rest, p⟩ = base := by
      rcases known with ⟨rfl, rfl | rfl⟩ | ⟨rfl, rfl | rfl⟩ | ⟨rfl, rfl | rfl⟩ <;> rfl
    have passed : (⟨('0' :: letter :: body).map Char.toUInt8 ++ rest, p⟩ : Cursor).advanceBy 2 =
        ⟨body.map Char.toUInt8 ++ rest, p.after ['0'.toUInt8, letter.toUInt8]⟩ := rfl
    refine ⟨found, ?_⟩
    rw [numberEnd, found, if_neg (by omega), passed,
      skipWhile_append _ (isBaseByte_of_spaced (by omega) spaced) (stops_isBaseByte stop),
      ← Pos.after_append]
    rfl

theorem readNumber_numeral {text : String} (numeral : IsNumeral base text.toList n)
    (stop : Stops isNumberByte rest) :
    readNumber ⟨utf8 text ++ rest, p⟩ =
      if n < twoTo 63 then .ok (.int n, ⟨rest, p.after (utf8 text)⟩)
      else .error (.point (.lexical (.number text)) p) := by
  obtain ⟨bytes, chars⟩ := utf8_of_ascii (ascii_of_numeral numeral)
  obtain ⟨found, ends⟩ := end_of_numeral (p := p) numeral stop
  rw [← bytes] at found ends
  have kind := numberKind_numeral numeral
  unfold readNumber
  by_cases room : n < twoTo 63
  · rw [if_pos room] at kind ⊢
    simp only [ends, found, written, upTo_append, chars, kind, ended_of_stops stop, bind,
      Except.bind, pure, Except.pure]
    rfl
  · rw [if_neg room] at kind ⊢
    simp only [ends, found, written, upTo_append, chars, kind, badNumber, String.ofList_toList,
      bind, Except.bind]
    rfl

end Literal

/-- A numeral begins with a digit. -/
theorem exists_first_digit {base n : Nat} {text : String} (numeral : IsNumeral base text.toList n) :
    ∃ b more, utf8 text = b :: more ∧ isDigit b = true := by
  obtain ⟨bytes, -⟩ := utf8_of_ascii (Literal.ascii_of_numeral numeral)
  rw [bytes]
  generalize text.toList = written at numeral
  cases numeral with
  | decimal first spaced =>
    cases written with
    | nil => exact absurd rfl spaced.1
    | cons c body =>
      refine ⟨_, _, rfl, ?_⟩
      have ascii := (Literal.sixteen_of_mem_body (by decide) spaced List.mem_cons_self).1
      rcases Literal.digit_of_mem_body (by decide) spaced List.mem_cons_self with digit | rfl
      · exact Literal.isDigit_of_digit ascii digit
      · exact absurd rfl first
  | lettered mark spaced => exact ⟨_, _, rfl, rfl⟩

/-- The reader takes a numeral for its value, or refuses it for the lack of room. -/
theorem Layout.readToken_numeral {base n : Nat} {text : String} {rest : List UInt8}
    (numeral : IsNumeral base text.toList n) (stop : Stops isNumberByte rest) :
    ∃ b more, utf8 text = b :: more ∧ isTokenStart b = true ∧
      ∀ p, readToken ⟨utf8 text ++ rest, p⟩ b =
        if n < twoTo 63 then .ok (.int n, ⟨rest, p.after (utf8 text)⟩)
        else .error (.point (.lexical (.number text)) p) := by
  obtain ⟨b, more, first, digit⟩ := exists_first_digit numeral
  have noQuote : ¬(b = 0x22 ∨ b = 0x27) := by
    rintro (rfl | rfl) <;> exact absurd digit (by decide)
  refine ⟨b, more, first, isTokenStart_of (by decide) digit, fun p => ?_⟩
  rw [readToken, if_neg noQuote, if_pos (.inl digit)]
  exact Literal.readNumber_numeral numeral stop

/-- A written number is a token if nothing follows that goes on with it. -/
theorem Layout.isToken_number {n : Nat} {rest : List UInt8} (small : n < twoTo 63)
    (stop : Stops isNumberByte rest) : IsToken (utf8 (toString n)) rest (.int n) := by
  obtain ⟨b, more, bytes, start, read⟩ := readToken_numeral (isNumeral_toString n) stop
  refine ⟨b, more, bytes, start, fun p => ?_⟩
  rw [read, if_pos small]

/-! ### The numbers among the tokens -/

/-- A whole number has a place in 63 bits. -/
def TokenKind.Small : TokenKind → Prop
  | .int n => n < twoTo 63
  | _ => True

theorem Layout.small_of_readToken {c after : Cursor} {b : UInt8} {kind : TokenKind}
    (read : readToken c b = .ok (kind, after)) : kind.Small := by
  cases isRead_of_readToken read with
  | int written => exact number?_below (by decide) written
  | _ => trivial

theorem tokens_small {bytes : List UInt8} {tokens : List (Token TokenKind)}
    (done : Script.tokens bytes = .ok tokens) : ∀ t ∈ tokens, t.kind.Small := by
  obtain ⟨before, last, rfl, eof, small⟩ :=
    tokens_emitted ⟨trivial, trivial, trivial, Layout.small_of_readToken⟩ done
  intro t member
  rcases List.mem_append.1 member with inside | final
  · exact small t inside
  · obtain rfl := List.mem_singleton.1 final
    rw [eof]
    trivial

end Script

end ScoreScript
