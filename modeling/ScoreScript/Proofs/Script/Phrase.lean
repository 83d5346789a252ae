import ScoreScript.Proofs.Script.Number

/-!
Phrases: texts within a line that are passed as tokens wherever they may stand. Larger phrases are
built from smaller ones by signs before them, by spaces and commas between them, and by brackets
around them.
-/

namespace ScoreScript.Script.Layout

open Cursor

/-- The bytes that may follow a phrase: a space, a bracket, a comma, a colon, the end of a line. -/
def endsPhrase (b : UInt8) : Bool :=
  b == 0x20 || b == 0x28 || b == 0x29 || b == 0x2C || b == 0x3A || b == 0x0A

/-- The bytes that a phrase may begin with; they do not go on with a sign before the phrase. -/
def startsPhrase (b : UInt8) : Bool :=
  isTokenStart b && !(b == 0x3D || b == 0x3E)

/-- The text begins with such a byte, and is passed as tokens of these kinds wherever the end of a
phrase may stand behind it. -/
structure IsPiece (first : UInt8 → Bool) (text : String) (kinds : List TokenKind) : Prop where
  opens : ∃ b more, utf8 text = b :: more ∧ first b = true
  passes : ∀ b rest, endsPhrase b = true → Passes (utf8 text) (b :: rest) kinds
  closed : ∀ brackets, kinds.foldl countBrackets brackets = brackets
  last : ∃ before kind, kinds = before ++ [kind] ∧ kind.isLayout = false

/-- A piece that may stand by itself. -/
abbrev IsPhrase : String → List TokenKind → Prop :=
  IsPiece startsPhrase

/-- A piece that may stand right behind a phrase. -/
abbrev IsTail : String → List TokenKind → Prop :=
  IsPiece endsPhrase

/-- The text is passed as tokens of these kinds before a closing bracket. -/
structure IsContent (text : String) (kinds : List TokenKind) : Prop where
  passes : ∀ rest, Passes (utf8 text) (0x29 :: rest) kinds
  closed : ∀ brackets, kinds.foldl countBrackets brackets = brackets

theorem startsPhrase_cases {b : UInt8} (h : startsPhrase b = true) :
    isTokenStart b = true ∧ b ≠ 0x3D ∧ b ≠ 0x3E := by
  simpa [startsPhrase] using h

theorem startsPhrase_of_isIdentStart {b : UInt8} (h : Literal.isIdentStart b = true) :
    startsPhrase b = true := by
  rw [startsPhrase, isTokenStart_of_isIdentStart h, Bool.true_and, Bool.not_eq_true']
  by_contra sign
  simp only [Bool.not_eq_false, Bool.or_eq_true, beq_iff_eq] at sign
  rcases sign with rfl | rfl <;> exact absurd h (by decide)

/-- What holds of no byte that ends a phrase stops a token before one. -/
theorem stops_of_endsPhrase {q : UInt8 → Bool}
    (apart : [0x20, 0x28, 0x29, 0x2C, 0x3A, 0x0A].any q = false) {b : UInt8} {rest : List UInt8}
    (ends : endsPhrase b = true) : Stops q (b :: rest) := by
  simp only [endsPhrase, Bool.or_eq_true, beq_iff_eq] at ends
  refine stops_cons (Bool.eq_false_iff.2 (List.any_eq_false.1 apart b ?_))
  rcases ends with ((((rfl | rfl) | rfl) | rfl) | rfl) | rfl <;> simp

namespace IsPhrase

variable {text : String} {kinds : List TokenKind}

/-! ### Tokens -/

theorem of_token {kind : TokenKind} (opens : ∃ b more, utf8 text = b :: more ∧ startsPhrase b = true)
    (plain : ∀ brackets, countBrackets brackets kind = brackets) (solid : kind.isLayout = false)
    (token : ∀ b rest, endsPhrase b = true → IsToken (utf8 text) (b :: rest) kind) :
    IsPhrase text [kind] :=
  ⟨opens, fun b rest ends => .of_token (token b rest ends), plain, [], kind, rfl, solid⟩

theorem exists_start {name : String} (ident : IsIdent name) :
    ∃ b more, utf8 name = b :: more ∧ startsPhrase b = true := by
  have first := ident.start
  cases bytes : utf8 name with
  | nil => simp [bytes] at first
  | cons b more =>
    exact ⟨b, more, rfl, startsPhrase_of_isIdentStart (by simpa [bytes] using first)⟩

theorem name {name : String} (ident : IsIdent name) (free : Keyword.ofText? name = none) :
    IsPhrase name [.name name] :=
  .of_token (exists_start ident) (fun _ => rfl) rfl fun _ _ ends =>
    isToken_name ident free (stops_of_endsPhrase (by decide) ends)
      (stops_of_endsPhrase (by decide) ends)

theorem word (keyword : Keyword) : IsPhrase keyword.text [.keyword keyword] := by
  have ident : IsIdent keyword.text := by cases keyword <;> decide
  have known : Keyword.ofText? keyword.text = some keyword := by cases keyword <;> decide
  refine .of_token (exists_start ident) (fun _ => rfl) rfl fun b rest ends => ?_
  have token : IsToken (utf8 keyword.text) (b :: rest) _ := isToken_word ident
    (stops_of_endsPhrase (by decide) ends) (stops_of_endsPhrase (by decide) ends)
  rwa [known] at token

theorem quote (value : String) : IsPhrase (quote value) [.string value .text] := by
  refine .of_token ⟨_, _, Literal.utf8_quote value, ?_⟩ (fun _ => rfl) rfl fun b rest ends =>
    isToken_quote value (stops_of_endsPhrase (by decide) ends)
  rcases delimiterFor_cases value.toList with same | same <;> rw [same] <;> decide

theorem number {n : Nat} (small : n < twoTo 63) : IsPhrase (toString n) [.int n] := by
  obtain ⟨b, more, bytes, digit⟩ := exists_first_digit (isNumeral_toString n)
  have start : startsPhrase b = true := by
    rw [startsPhrase, isTokenStart_of (by decide) digit, Bool.true_and, Bool.not_eq_true']
    by_contra sign
    simp only [Bool.not_eq_false, Bool.or_eq_true, beq_iff_eq] at sign
    rcases sign with rfl | rfl <;> exact absurd digit (by decide)
  exact .of_token ⟨b, more, bytes, start⟩ (fun _ => rfl) rfl
    fun _ _ ends => isToken_number small (stops_of_endsPhrase (by decide) ends)

theorem ellipsis : IsPhrase "..." [.op .ellipsis] :=
  .of_token ⟨0x2E, [0x2E, 0x2E], rfl, by decide⟩ (fun _ => rfl) rfl fun _ _ _ => isToken_ellipsis

/-! ### Signs before a phrase -/

/-- A token before a phrase that may stand before whatever a phrase begins with. -/
theorem after {sign : String} {kind : TokenKind}
    (opens : ∃ b more, utf8 sign = b :: more ∧ startsPhrase b = true)
    (plain : ∀ brackets, countBrackets brackets kind = brackets)
    (token : ∀ b rest, startsPhrase b = true → IsToken (utf8 sign) (b :: rest) kind)
    (h : IsPhrase text kinds) : IsPhrase (sign ++ text) (kind :: kinds) := by
  obtain ⟨before, last, rfl, solid⟩ := h.last
  obtain ⟨c, more, bytes, start⟩ := h.opens
  obtain ⟨s, signs, first, opens⟩ := opens
  refine ⟨⟨s, _, by rw [utf8_append, first]; rfl, opens⟩, fun b rest ends => ?_, fun brackets => ?_,
    kind :: before, last, rfl, solid⟩
  · have front : Passes (utf8 sign) (utf8 text ++ b :: rest) [kind] := by
      rw [bytes]
      exact .of_token (token c _ start)
    rw [utf8_append]
    exact front.append (h.passes b rest ends)
  · rw [List.foldl_cons, plain, h.closed]

theorem minus (h : IsPhrase text kinds) : IsPhrase ("-" ++ text) (.op .minus :: kinds) :=
  h.after ⟨_, _, rfl, rfl⟩ (fun _ => rfl) fun _ _ start =>
    isToken_minus (startsPhrase_cases start).2.1 (startsPhrase_cases start).2.2

theorem unpack (h : IsPhrase text kinds) : IsPhrase ("**" ++ text) (.op .power :: kinds) :=
  h.after ⟨_, _, rfl, rfl⟩ (fun _ => rfl) fun _ _ start =>
    isToken_power (startsPhrase_cases start).2.1

/-- A name that a value is given to. -/
theorem named {name : String} (ident : IsIdent name) (free : Keyword.ofText? name = none)
    (h : IsPhrase text kinds) :
    IsPhrase (name ++ "=" ++ text) (.name name :: .op .assign :: kinds) := by
  obtain ⟨before, last, rfl, solid⟩ := h.last
  obtain ⟨c, more, bytes, start⟩ := h.opens
  obtain ⟨s, letters, first, opens⟩ := exists_start ident
  have sign : utf8 "=" = [0x3D] := rfl
  refine ⟨⟨s, _, by rw [utf8_append, utf8_append, first]; rfl, opens⟩, fun b rest ends => ?_,
    h.closed, .name name :: .op .assign :: before, last, rfl, solid⟩
  have assign : Passes (utf8 "=") (utf8 text ++ b :: rest) [.op .assign] := by
    rw [bytes]
    exact .of_token (isToken_assign (startsPhrase_cases start).2.1)
  have word : Passes (utf8 name) (utf8 "=" ++ utf8 text ++ b :: rest) [.name name] := by
    rw [sign]
    exact .of_token (isToken_name ident free (stops_cons rfl) (stops_cons rfl))
  rw [utf8_append, utf8_append, List.append_assoc]
  exact word.append (assign.append (h.passes b rest ends))

/-! ### Phrases behind phrases -/

/-- A space before a phrase. -/
theorem spaced (h : IsPhrase text kinds) : IsTail (" " ++ text) kinds := by
  obtain ⟨c, more, bytes, start⟩ := h.opens
  have space : utf8 (" " ++ text) = 0x20 :: c :: more := by rw [utf8_append, bytes]; rfl
  refine ⟨⟨_, _, space, rfl⟩, fun b rest ends => ?_, h.closed, h.last⟩
  have passes := h.passes b rest ends
  rw [bytes] at passes
  rw [space]
  exact passes.space (startsPhrase_cases start).1

/-- A comma and a space before a phrase. -/
theorem afterComma (h : IsPhrase text kinds) : IsTail (", " ++ text) (.op .comma :: kinds) := by
  obtain ⟨before, last, same, solid⟩ := h.last
  refine ⟨⟨0x2C, _, by rw [utf8_append]; rfl, rfl⟩, fun b rest ends => ?_, h.closed,
    .op .comma :: before, last, by rw [same, List.cons_append], solid⟩
  have comma : Passes (utf8 ",") (utf8 (" " ++ text) ++ b :: rest) [.op .comma] :=
    .of_token isToken_comma
  have both : utf8 (", " ++ text) = utf8 "," ++ utf8 (" " ++ text) := by
    rw [utf8_append, utf8_append]
    rfl
  rw [both]
  exact comma.append (h.spaced.passes b rest ends)

end IsPhrase

section

variable {first : UInt8 → Bool} {text text' : String} {kinds kinds' : List TokenKind}

theorem IsPiece.append (h : IsPiece first text kinds) (h' : IsTail text' kinds') :
    IsPiece first (text ++ text') (kinds ++ kinds') := by
  obtain ⟨b, more, bytes, opens⟩ := h.opens
  obtain ⟨c, tail, bytes', ends'⟩ := h'.opens
  obtain ⟨before, last, rfl, solid⟩ := h'.last
  refine ⟨⟨b, _, by rw [utf8_append, bytes]; rfl, opens⟩, fun d rest ends => ?_, fun brackets => ?_,
    kinds ++ before, last, by rw [List.append_assoc], solid⟩
  · have front : Passes (utf8 text) (utf8 text' ++ d :: rest) kinds := by
      rw [bytes']
      exact h.passes c _ ends'
    rw [utf8_append]
    exact front.append (h'.passes d rest ends)
  · rw [List.foldl_append, h.closed, h'.closed]

/-- A reserved word and a space before a phrase. -/
theorem IsPhrase.afterWord (keyword : Keyword) (h : IsPhrase text kinds) :
    IsPhrase (keyword.text ++ " " ++ text) (.keyword keyword :: kinds) := by
  rw [String.append_assoc]
  exact (IsPhrase.word keyword).append h.spaced

/-- Phrases with commas between them. -/
theorem IsPhrase.commas :
    ∀ (piece : String × List TokenKind) (more : List (String × List TokenKind)),
      (∀ each ∈ piece :: more, IsPhrase each.1 each.2) →
      IsPhrase (", ".intercalate ((piece :: more).map (·.1)))
        ([TokenKind.op .comma].intercalate ((piece :: more).map (·.2)))
  | piece, [], all => by simpa using all
  | piece, next :: more, all => by
    obtain ⟨here, others⟩ := List.forall_mem_cons.1 all
    have later := here.append (IsPhrase.commas next more others).afterComma
    rw [List.map_cons, List.map_cons, String.intercalate_cons_cons, List.map_cons, List.map_cons,
      List.intercalate_cons_cons]
    simpa [String.append_assoc] using later

/-! ### Brackets -/

namespace IsContent

theorem empty : IsContent "" [] :=
  ⟨fun _ => .nil, fun _ => rfl⟩

theorem of_phrase (h : IsPhrase text kinds) : IsContent text kinds :=
  ⟨fun rest => h.passes 0x29 rest rfl, h.closed⟩

/-- A phrase with a comma behind it. -/
theorem comma (h : IsPhrase text kinds) : IsContent (text ++ ",") (kinds ++ [.op .comma]) := by
  refine ⟨fun rest => ?_, fun brackets => ?_⟩
  · have comma : Passes (utf8 ",") (0x29 :: rest) [.op .comma] := .of_token isToken_comma
    rw [utf8_append]
    exact Passes.append (h.passes 0x2C _ rfl) comma
  · rw [List.foldl_append, h.closed]
    rfl

theorem commas {pieces : List (String × List TokenKind)}
    (all : ∀ each ∈ pieces, IsPhrase each.1 each.2) :
    IsContent (", ".intercalate (pieces.map (·.1)))
      ([TokenKind.op .comma].intercalate (pieces.map (·.2))) := by
  cases pieces with
  | nil => exact .empty
  | cons piece more => exact .of_phrase (IsPhrase.commas piece more all)

/-- Brackets around their content end, whatever stands behind them. -/
theorem passes_brackets (h : IsContent text kinds) (rest : List UInt8) :
    Passes (utf8 ("(" ++ text ++ ")")) rest (.op .leftParen :: (kinds ++ [.op .rightParen])) := by
  have opening : Passes (utf8 "(") (utf8 text ++ utf8 ")" ++ rest) [.op .leftParen] :=
    .of_token isToken_leftParen
  have closing : Passes (utf8 ")") rest [.op .rightParen] := .of_token isToken_rightParen
  rw [utf8_append, utf8_append, List.append_assoc]
  exact opening.append ((h.passes _).append closing)

/-- Brackets around their content. -/
theorem bracketed (h : IsContent text kinds) (opens : first 0x28 = true) :
    IsPiece first ("(" ++ text ++ ")") (.op .leftParen :: (kinds ++ [.op .rightParen])) := by
  refine ⟨⟨0x28, _, by rw [utf8_append, utf8_append]; rfl, opens⟩,
    fun b rest _ => h.passes_brackets (b :: rest), fun brackets => ?_,
    .op .leftParen :: kinds, .op .rightParen, rfl, rfl⟩
  rw [List.foldl_cons, List.foldl_append, h.closed]
  rfl

end IsContent

/-- A call of what a phrase stands for. -/
theorem IsPhrase.call (h : IsPhrase text kinds) (args : IsContent text' kinds') :
    IsPhrase (text ++ ("(" ++ text' ++ ")"))
      (kinds ++ .op .leftParen :: (kinds' ++ [.op .rightParen])) :=
  h.append (args.bracketed rfl)

end

end ScoreScript.Script.Layout
