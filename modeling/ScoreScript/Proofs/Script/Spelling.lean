import ScoreScript.Proofs.Script.Layout

/-!
How tokens are spelled: names, reserved words, text literals and operators, each with what must not
follow them.
-/

namespace ScoreScript.Script

open Cursor Layout

/-- A name that the reader of scripts accepts, reserved words included. -/
structure IsIdent (name : String) : Prop where
  start : (utf8 name).head?.any Literal.isIdentStart = true
  bytes : ∀ b ∈ utf8 name, Literal.isIdentByte b = true

instance (name : String) : Decidable (IsIdent name) :=
  decidable_of_iff
    ((utf8 name).head?.any Literal.isIdentStart = true ∧
      (utf8 name).all Literal.isIdentByte = true)
    ⟨fun h => ⟨h.1, List.all_eq_true.1 h.2⟩, fun h => ⟨h.start, List.all_eq_true.2 h.bytes⟩⟩

def isQuote (b : UInt8) : Bool :=
  b == 0x22 || b == 0x27

namespace Layout

variable {rest : List UInt8}

/-- What holds of none of the signs that a line treats otherwise holds of starts of tokens only. -/
theorem isTokenStart_of {q : UInt8 → Bool}
    (apart : [0x20, 0x09, 0x0C, 0x23, 0x5C, 0x0A, 0x0D].any q = false) {b : UInt8}
    (h : q b = true) : isTokenStart b = true := by
  by_contra none
  rw [Bool.not_eq_true] at none
  simp only [isTokenStart, isBlank, Bool.not_eq_false', Bool.or_eq_true, beq_iff_eq] at none
  have sign : b ∈ [0x20, 0x09, 0x0C, 0x23, 0x5C, 0x0A, 0x0D] := by
    rcases none with (((((rfl | rfl) | rfl) | rfl) | rfl) | rfl) | rfl <;> simp
  exact List.any_eq_false.1 apart b sign h

theorem isTokenStart_of_isIdentStart {b : UInt8} (h : Literal.isIdentStart b = true) :
    isTokenStart b = true :=
  isTokenStart_of (by decide) h

theorem isTokenStart_of_isQuote {b : UInt8} (h : isQuote b = true) : isTokenStart b = true :=
  isTokenStart_of (by decide) h

theorem readToken_word {c : Cursor} {b : UInt8} (h : Literal.isIdentStart b = true) :
    readToken c b = readWord c := by
  have noQuote : ¬(b = 0x22 ∨ b = 0x27) := by
    rintro (rfl | rfl) <;> exact absurd h (by decide)
  have noDot : b ≠ 0x2E := by
    rintro rfl
    exact absurd h (by decide)
  have noDigit : isDigit b = false := by
    by_contra digit
    simp only [Bool.not_eq_false, isDigit, Bool.and_eq_true, decide_eq_true_eq,
      UInt8.le_iff_toNat_le, UInt8.reduceToNat] at digit
    simp only [Literal.isIdentStart, Bool.or_eq_true, Bool.and_eq_true, decide_eq_true_eq,
      UInt8.le_iff_toNat_le, UInt8.reduceToNat, beq_iff_eq, ← UInt8.toNat_inj] at h
    omega
  rw [readToken, if_neg noQuote, if_neg (by simp [noDigit, noDot]), if_pos h]

theorem readWord_written {name : String} (ident : IsIdent name)
    (stop : Stops Literal.isIdentByte rest) (noQuote : Stops isQuote rest) (p : Pos) :
    readWord ⟨utf8 name ++ rest, p⟩ =
      .ok (((Keyword.ofText? name).map .keyword).getD (.name name),
        ⟨rest, p.after (utf8 name)⟩) := by
  have noLook {sign : Char} (quote : isQuote sign.toUInt8 = true) :
      (⟨rest, p.after (utf8 name)⟩ : Cursor).look ≠ some sign := by
    intro here
    have none := noQuote _ (current_of_look here)
    rw [quote] at none
    cases none
  have noForm : ¬((⟨rest, p.after (utf8 name)⟩ : Cursor).look = some '"' ∨
      (⟨rest, p.after (utf8 name)⟩ : Cursor).look = some '\'') := by
    rintro (here | here)
    · exact noLook (by decide) here
    · exact noLook (by decide) here
  unfold readWord
  simp only [skipWhile_append _ ident.bytes stop, upTo_append, ofUtf8?_utf8, if_neg noForm]
  cases Keyword.ofText? name <;> rfl

/-- A word is a token of its own if neither a letter nor a quote follows. -/
theorem isToken_word {name : String} (ident : IsIdent name)
    (stop : Stops Literal.isIdentByte rest) (noQuote : Stops isQuote rest) :
    IsToken (utf8 name) rest (((Keyword.ofText? name).map .keyword).getD (.name name)) := by
  have first := ident.start
  cases bytes : utf8 name with
  | nil => simp [bytes] at first
  | cons b more =>
    have start : Literal.isIdentStart b = true := by simpa [bytes] using first
    refine ⟨b, more, rfl, isTokenStart_of_isIdentStart start, fun p => ?_⟩
    rw [readToken_word start, ← bytes]
    exact readWord_written ident stop noQuote p

theorem isToken_name {name : String} (ident : IsIdent name) (free : Keyword.ofText? name = none)
    (stop : Stops Literal.isIdentByte rest) (noQuote : Stops isQuote rest) :
    IsToken (utf8 name) rest (.name name) := by
  have word := isToken_word ident stop noQuote
  rwa [free] at word

/-- The literal of a text is a token if no quote follows. -/
theorem isToken_quote (text : String) (noQuote : Stops isQuote rest) :
    IsToken (utf8 (quote text)) rest (.string text .text) := by
  have bytes := Literal.utf8_quote text
  have mark : (delimiterFor text.toList).toUInt8 = 0x22 ∨
      (delimiterFor text.toList).toUInt8 = 0x27 := by
    rcases delimiterFor_cases text.toList with same | same <;> rw [same]
    · exact .inl rfl
    · exact .inr rfl
  refine ⟨_, _, bytes, isTokenStart_of_isQuote (by simpa [isQuote] using mark), fun p => ?_⟩
  rw [readToken, if_pos mark]
  exact Literal.readString_quote text noQuote

/-! ### Operators -/

/-- A word is not spelled where another byte stands in it. -/
theorem startsWith_ne {p : Pos} {b sign : UInt8} {word : String} (first : List UInt8)
    {more : List UInt8} (bytes : word.toList.map Char.toUInt8 = first ++ sign :: more)
    (other : b ≠ sign) : (⟨first ++ b :: rest, p⟩ : Cursor).startsWith word = false := by
  rw [← Bool.not_eq_true, startsWith, bytes, List.isPrefixOf_iff_prefix,
    List.prefix_append_right_inj, List.cons_prefix_cons]
  exact fun same => other same.1.symm

/-- The first operator in the list that stands here is found. -/
theorem find?_operator {c : Cursor} (op : Operator) (here : c.startsWith op.text = true)
    (longer : ∀ o ∈ Operator.all.takeWhile (· != op), c.startsWith o.text = false) :
    (Operator.all.find? fun op => c.startsWith op.text) = some op := by
  have split : Operator.all.takeWhile (· != op) ++ Operator.all.dropWhile (· != op) =
      Operator.all := List.takeWhile_append_dropWhile
  have first : ∃ more, Operator.all.dropWhile (· != op) = op :: more := by
    cases op <;> exact ⟨_, rfl⟩
  obtain ⟨more, first⟩ := first
  rw [first] at split
  rw [← split, List.find?_append, List.find?_eq_none.2 fun o member => by simp [longer o member]]
  simp [here]

/-- An operator is a token of its own where it is the first in the list to stand there, and where
it does not begin a number. -/
theorem isToken_op (op : Operator) {b : UInt8} (more : List UInt8)
    (bytes : utf8 op.text = b :: more) (long : op.text.length = more.length + 1)
    (start : isTokenStart b = true) (noQuote : isQuote b = false) (noDigit : isDigit b = false)
    (noWord : Literal.isIdentStart b = false)
    (noNumber : b = 0x2E → Stops isDigit (more ++ rest))
    (longer : ∀ p, ∀ o ∈ Operator.all.takeWhile (· != op),
      (⟨b :: (more ++ rest), p⟩ : Cursor).startsWith o.text = false) :
    IsToken (utf8 op.text) rest (.op op) := by
  refine ⟨b, more, bytes, start, fun p => ?_⟩
  simp only [isQuote, Bool.or_eq_false_iff, beq_eq_false_iff_ne] at noQuote
  have passed : (⟨b :: (more ++ rest), p⟩ : Cursor).advanceBy (more.length + 1) =
      ⟨rest, p.after (b :: more)⟩ := advanceBy_append (b :: more) rfl
  have here : (⟨b :: (more ++ rest), p⟩ : Cursor).startsWith op.text = true := by
    have ascii : op.text.toList.map Char.toUInt8 = utf8 op.text := by cases op <;> rfl
    rw [startsWith, ascii, bytes, List.isPrefixOf_iff_prefix]
    exact ⟨rest, rfl⟩
  have notNumber : ¬(isDigit b = true ∨
      (b = 0x2E ∧ ((⟨b :: (more ++ rest), p⟩ : Cursor).peek 1).any isDigit = true)) := by
    rintro (digit | ⟨dot, next⟩)
    · rw [noDigit] at digit
      cases digit
    · obtain ⟨c, second, digit⟩ := (Option.any_eq_true _ _).1 next
      have none := noNumber dot c (by rw [List.head?_eq_getElem?]; exact second)
      rw [digit] at none
      cases none
  rw [bytes, List.cons_append, readToken, if_neg (by simp [noQuote]), if_neg notNumber,
    if_neg (by simp [noWord]), readOperator, find?_operator op here (longer p)]
  simp only [long, passed]

/-- An operator of one sign that no other operator begins with. -/
theorem isToken_sign (op : Operator) {b : UInt8} (bytes : utf8 op.text = [b])
    (long : op.text.length = 1) (start : isTokenStart b = true) (noQuote : isQuote b = false)
    (noDigit : isDigit b = false) (noWord : Literal.isIdentStart b = false) (noDot : b ≠ 0x2E)
    (longer : ∀ p, ∀ o ∈ Operator.all.takeWhile (· != op),
      (⟨b :: rest, p⟩ : Cursor).startsWith o.text = false) :
    IsToken (utf8 op.text) rest (.op op) :=
  isToken_op op [] bytes long start noQuote noDigit noWord (fun dot => absurd dot noDot) longer

section

variable {b : UInt8}

theorem isToken_leftParen : IsToken (utf8 "(") rest (.op .leftParen) :=
  isToken_sign .leftParen rfl rfl rfl rfl rfl rfl (by decide) fun _ o member => by
    cases o <;> first | rfl | exact absurd member (by decide)

theorem isToken_rightParen : IsToken (utf8 ")") rest (.op .rightParen) :=
  isToken_sign .rightParen rfl rfl rfl rfl rfl rfl (by decide) fun _ o member => by
    cases o <;> first | rfl | exact absurd member (by decide)

theorem isToken_comma : IsToken (utf8 ",") rest (.op .comma) :=
  isToken_sign .comma rfl rfl rfl rfl rfl rfl (by decide) fun _ o member => by
    cases o <;> first | rfl | exact absurd member (by decide)

theorem isToken_assign (noAssign : b ≠ 0x3D) : IsToken (utf8 "=") (b :: rest) (.op .assign) :=
  isToken_sign .assign rfl rfl rfl rfl rfl rfl (by decide) fun _ o member => by
    cases o <;> first
      | rfl
      | exact absurd member (by decide)
      | exact startsWith_ne [0x3D] rfl noAssign

theorem isToken_colon (noAssign : b ≠ 0x3D) : IsToken (utf8 ":") (b :: rest) (.op .colon) :=
  isToken_sign .colon rfl rfl rfl rfl rfl rfl (by decide) fun _ o member => by
    cases o <;> first
      | rfl
      | exact absurd member (by decide)
      | exact startsWith_ne [0x3A] rfl noAssign

theorem isToken_minus (noAssign : b ≠ 0x3D) (noArrow : b ≠ 0x3E) :
    IsToken (utf8 "-") (b :: rest) (.op .minus) :=
  isToken_sign .minus rfl rfl rfl rfl rfl rfl (by decide) fun _ o member => by
    cases o <;> first
      | rfl
      | exact absurd member (by decide)
      | exact startsWith_ne [0x2D] rfl noAssign
      | exact startsWith_ne [0x2D] rfl noArrow

theorem isToken_power (noAssign : b ≠ 0x3D) : IsToken (utf8 "**") (b :: rest) (.op .power) :=
  isToken_op .power [0x2A] rfl rfl rfl rfl rfl rfl (fun dot => absurd dot (by decide))
    fun _ o member => by
      cases o <;> first
        | rfl
        | exact absurd member (by decide)
        | exact startsWith_ne [0x2A, 0x2A] rfl noAssign

theorem isToken_ellipsis : IsToken (utf8 "...") rest (.op .ellipsis) :=
  isToken_op .ellipsis [0x2E, 0x2E] rfl rfl rfl rfl rfl rfl (fun _ => stops_cons rfl)
    fun _ o member => by
      cases o <;> first | rfl | exact absurd member (by decide)

end

end Layout

end ScoreScript.Script
