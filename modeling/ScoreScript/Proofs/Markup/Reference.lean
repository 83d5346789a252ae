import Mathlib.Data.Nat.Digits.Defs
import ScoreScript.Proofs.Markup.Escape
import ScoreScript.Proofs.Stateful

/-!
Which references there are. An ampersand begins one of five words, or a number in base ten or
sixteen, and a semicolon ends it. Decoding a text succeeds exactly if all its ampersands begin
references, and replaces each by its character; but it also takes a number behind a plus sign for
one, which no reference has. Main statements: `char_eq_some_iff`, `decode_eq_ok_iff`,
`exists_replaces_iff`.
-/

namespace ScoreScript

/-- Digits of a base, and the number they write. Letters stand for the digits from ten on, in either
case. -/
def Writes (base : Nat) (digits : List Char) (n : Nat) : Prop :=
  digits ≠ [] ∧ ∃ values : List Nat, (∀ d ∈ values, d < base) ∧
    digits.map Char.toLower = values.map Nat.digitChar ∧ n = Nat.ofDigits base values.reverse

/-! ### Digits that are read -/

theorem digit?_ascii : ∀ n < 128, ∀ d < 16,
    (digit? 16 (Char.ofNat n) = some d ↔ (Char.ofNat n).toLower = Nat.digitChar d) := by
  decide +kernel

/-- A digit is a character whose lower case is written for its value. -/
theorem digit?_eq_some_iff {base d : Nat} (small : base ≤ 16) {c : Char} :
    digit? base c = some d ↔ d < base ∧ c.toLower = Nat.digitChar d := by
  have inBase : digit? base c = some d ↔ d < base ∧ digit? 16 c = some d := by
    unfold digit?
    grind
  rw [inBase]
  refine and_congr_right fun less => ?_
  by_cases narrow : c.toNat < 128
  · have known := digit?_ascii c.toNat narrow d (Nat.lt_of_lt_of_le less small)
    rwa [Char.ofNat_toNat] at known
  · -- No digit lies beyond ASCII, and case does not matter there.
    have noDigit : digit? 16 c = none :=
      Option.eq_none_iff_forall_ne_some.2 fun _ digit => narrow (ascii_of_digit? digit)
    have same : c.toLower = c := by
      unfold Char.toLower
      have upper : 'Z'.val.toNat < 128 := by decide
      rw [dif_neg]
      rintro ⟨-, le⟩
      exact narrow (Nat.lt_of_le_of_lt (UInt32.le_iff_toNat_le.1 le) upper)
    have written : ∀ d < 16, (Nat.digitChar d).toNat < 128 := by decide
    rw [noDigit, same]
    refine iff_of_false nofun fun here => narrow ?_
    rw [here]
    exact written d (Nat.lt_of_lt_of_le less small)

/-- The number that further digits make of one. -/
def appended (base before : Nat) (values : List Nat) : Nat :=
  values.foldl (fun n d => n * base + d) before

theorem le_appended {base : Nat} (pos : 0 < base) (before : Nat) (values : List Nat) :
    before ≤ appended base before values := by
  induction values generalizing before with
  | nil => exact Nat.le_refl _
  | cons d values ih =>
    calc
      before ≤ before * base := Nat.le_mul_of_pos_right before pos
      _ ≤ before * base + d := Nat.le_add_right _ _
      _ ≤ appended base (before * base + d) values := ih _

theorem appended_zero (base : Nat) (values : List Nat) :
    appended base 0 values = Nat.ofDigits base values.reverse := by
  rw [Nat.ofDigits_eq_foldr, List.foldr_reverse, appended]
  simp only [Nat.cast_id, Nat.mul_comm base, Nat.add_comm]

/-- Reading digits stops at a limit, which the numbers on the way reach only if the last does. -/
theorem digitsFrom?_eq_some_iff {base limit : Nat} (pos : 0 < base) (small : base ≤ 16)
    {digits : List Char} {before n : Nat} (less : before < limit) :
    digitsFrom? base limit before digits = some n ↔
      n < limit ∧ ∃ values : List Nat, (∀ d ∈ values, d < base) ∧
        digits.map Char.toLower = values.map Nat.digitChar ∧ n = appended base before values := by
  induction digits generalizing before with
  | nil =>
    simp only [digitsFrom?, Option.some_inj, List.map_nil]
    constructor
    · rintro rfl
      exact ⟨less, [], nofun, rfl, rfl⟩
    · rintro ⟨-, values, -, none, rfl⟩
      obtain rfl := List.map_eq_nil_iff.1 none.symm
      rfl
  | cons c digits ih =>
    simp only [digitsFrom?, Option.bind_eq_some_iff, List.map_cons]
    constructor
    · rintro ⟨d, digit, more⟩
      obtain ⟨inBase, first⟩ := (digit?_eq_some_iff small).1 digit
      split at more
      · rename_i below
        obtain ⟨end_, values, all, later, rfl⟩ := (ih below).1 more
        refine ⟨end_, d :: values, List.forall_mem_cons.2 ⟨inBase, all⟩, ?_, rfl⟩
        rw [first, later, List.map_cons]
      · cases more
    · rintro ⟨below, values, all, same, rfl⟩
      cases values with
      | nil => cases same
      | cons d values =>
        obtain ⟨inBase, all⟩ := List.forall_mem_cons.1 all
        obtain ⟨first, later⟩ := List.cons.inj same
        have step := Nat.lt_of_le_of_lt (le_appended pos (before * base + d) values) below
        refine ⟨d, (digit?_eq_some_iff small).2 ⟨inBase, first⟩, ?_⟩
        rw [if_pos step]
        exact (ih step).2 ⟨below, values, all, later, rfl⟩

theorem number?_eq_some_iff {base limit : Nat} (pos : 0 < base) (small : base ≤ 16)
    {digits : List Char} {n : Nat} (some_number : 0 < limit) :
    number? base limit digits = some n ↔ n < limit ∧ Writes base digits n := by
  rw [number?, Writes]
  cases digits with
  | nil => simp
  | cons c digits =>
    simp only [List.isEmpty_cons, Bool.false_eq_true, if_false, ne_eq, reduceCtorEq,
      not_false_eq_true, true_and, ← appended_zero]
    exact digitsFrom?_eq_some_iff pos small some_number

/-- A sign is no digit. -/
theorem Writes.not_cons {base n : Nat} (small : base ≤ 16) {sign : Char} {digits : List Char}
    (foreign : ∀ d < 16, sign.toLower ≠ Nat.digitChar d) : ¬Writes base (sign :: digits) n := by
  rintro ⟨-, values, all, same, -⟩
  cases values with
  | nil => cases same
  | cons d values =>
    exact foreign d (Nat.lt_of_lt_of_le (all d List.mem_cons_self) small) (List.cons.inj same).1

/-- Signs do not occur among digits. -/
theorem Writes.not_mem {base n : Nat} (small : base ≤ 16) {sign : Char} {digits : List Char}
    (written : Writes base digits n) (foreign : ∀ d < 16, sign.toLower ≠ Nat.digitChar d) :
    sign ∉ digits := by
  obtain ⟨-, values, all, same, -⟩ := written
  intro member
  have lower := List.mem_map_of_mem (f := Char.toLower) member
  rw [same] at lower
  obtain ⟨d, inside, digit⟩ := List.mem_map.1 lower
  exact foreign d (Nat.lt_of_lt_of_le (all d inside) small) digit.symm

namespace Entity

/-! ### References -/

/-- A number behind a sign, or behind none, and the character it denotes. -/
inductive IsNumber (sign : List Char) : List Char → Char → Prop where
  | decimal {digits : List Char} {c : Char} (written : Writes 10 digits c.toNat) :
    IsNumber sign ('#' :: (sign ++ digits)) c
  | hexadecimal {digits : List Char} {c : Char} (written : Writes 16 digits c.toNat) :
    IsNumber sign ('#' :: 'x' :: (sign ++ digits)) c

/-- What stands between the ampersand and the semicolon of a reference, and its character. -/
inductive IsReference : List Char → Char → Prop where
  | amp : IsReference "amp".toList '&'
  | lt : IsReference "lt".toList '<'
  | gt : IsReference "gt".toList '>'
  | quot : IsReference "quot".toList '"'
  | apos : IsReference "apos".toList '\''
  | number {name : List Char} {c : Char} (number : IsNumber [] name c) : IsReference name c

theorem number?_char?_eq_some_iff {base : Nat} (pos : 0 < base) (small : base ≤ 16)
    {digits : List Char} {c : Char} :
    (number? base charLimit digits).bind char? = some c ↔ Writes base digits c.toNat := by
  have valid : c.toNat.isValidChar := c.valid
  have below : c.toNat < charLimit := by
    rw [charLimit]
    omega
  simp only [Option.bind_eq_some_iff, char?_eq_some_iff, exists_eq_right']
  rw [number?_eq_some_iff pos small (by decide)]
  exact and_iff_right below

/-- A number is read behind a plus sign, or behind none. -/
theorem signed?_char?_eq_some_iff {base : Nat} (pos : 0 < base) (small : base ≤ 16)
    {digits : List Char} {c : Char} :
    (signed? base digits).bind char? = some c ↔
      Writes base digits c.toNat ∨ ∃ more, digits = '+' :: more ∧ Writes base more c.toNat := by
  unfold signed?
  split
  · rename_i more
    have noDigit : ¬Writes base ('+' :: more) c.toNat := Writes.not_cons small (by decide)
    rw [number?_char?_eq_some_iff pos small, or_iff_right noDigit]
    constructor
    · intro written
      exact ⟨more, rfl, written⟩
    · intro signed
      obtain ⟨_, ⟨⟩, written⟩ := signed
      exact written
  · rename_i noSign
    rw [number?_char?_eq_some_iff pos small, or_iff_left]
    rintro ⟨more, rfl, -⟩
    exact noSign more rfl

theorem char_decimal {digits : List Char} (noMark : digits.head? ≠ some 'x') :
    char ('#' :: digits) = (signed? 10 digits).bind char? := by
  cases digits with
  | nil => rfl
  | cons d digits =>
    have other : d ≠ 'x' := fun same => noMark (by rw [same]; rfl)
    simp [char, other]

/-- Besides what references name, a number behind a plus sign is taken for one. -/
theorem char_eq_some_iff {name : List Char} {c : Char} :
    char name = some c ↔ IsReference name c ∨ IsNumber ['+'] name c := by
  constructor
  · intro named
    unfold char at named
    split at named
    · cases named
      exact .inl .amp
    · cases named
      exact .inl .lt
    · cases named
      exact .inl .gt
    · cases named
      exact .inl .quot
    · cases named
      exact .inl .apos
    · rcases (signed?_char?_eq_some_iff (by decide) (by decide)).1 named with
        written | ⟨more, rfl, written⟩
      · exact .inl (.number (.hexadecimal written))
      · exact .inr (.hexadecimal written)
    · rcases (signed?_char?_eq_some_iff (by decide) (by decide)).1 named with
        written | ⟨more, rfl, written⟩
      · exact .inl (.number (.decimal written))
      · exact .inr (.decimal written)
    · cases named
  · have decimal {digits : List Char} (noMark : digits.head? ≠ some 'x') :
        Writes 10 digits c.toNat ∨ (∃ more, digits = '+' :: more ∧ Writes 10 more c.toNat) →
          char ('#' :: digits) = some c := fun written => by
      rw [char_decimal noMark]
      exact (signed?_char?_eq_some_iff (by decide) (by decide)).2 written
    have hexadecimal {digits : List Char} :
        Writes 16 digits c.toNat ∨ (∃ more, digits = '+' :: more ∧ Writes 16 more c.toNat) →
          char ('#' :: 'x' :: digits) = some c :=
      (signed?_char?_eq_some_iff (by decide) (by decide)).2
    rintro (reference | signed)
    · cases reference with
      | amp | lt | gt | quot | apos => rfl
      | number number =>
        cases number with
        | decimal written =>
          refine decimal (fun mark => ?_) (.inl written)
          obtain ⟨more, rfl⟩ := List.head?_eq_some_iff.1 mark
          exact Writes.not_cons (by decide) (by decide) written
        | hexadecimal written => exact hexadecimal (.inl written)
    · cases signed with
      | decimal written => exact decimal nofun (.inr ⟨_, rfl, written⟩)
      | hexadecimal written => exact hexadecimal (.inr ⟨_, rfl, written⟩)

/-! ### Texts with references -/

/-- A text whose ampersands all begin references, and the text with their characters instead. -/
inductive Replaces (names : List Char → Char → Prop) : List Char → List Char → Prop where
  | nil : Replaces names [] []
  | plain {c : Char} {text result : List Char} (plain : c ≠ '&')
    (later : Replaces names text result) : Replaces names (c :: text) (c :: result)
  | reference {name text result : List Char} {c : Char} (named : names name c)
    (later : Replaces names text result) :
    Replaces names ('&' :: (name ++ ';' :: text)) (c :: result)

/-- Every ampersand of the text begins a reference. -/
def AmpersandsBegin (names : List Char → Char → Prop) (text : List Char) : Prop :=
  ∀ before after, text = before ++ '&' :: after →
    ∃ name c rest, names name c ∧ after = name ++ ';' :: rest

/-- No sign that begins or ends a reference occurs in a name. -/
def Enclosed (names : List Char → Char → Prop) : Prop :=
  ∀ name c, names name c → '&' ∉ name ∧ ';' ∉ name

theorem IsNumber.enclosed {sign : List Char} (noMark : '&' ∉ sign) (noEnd : ';' ∉ sign) :
    Enclosed (IsNumber sign) := by
  intro name c number
  cases number with
  | @decimal digits _ written =>
    have inside : '&' ∉ digits := written.not_mem (by decide) (by decide)
    have inside' : ';' ∉ digits := written.not_mem (by decide) (by decide)
    simp [noMark, noEnd, inside, inside']
  | @hexadecimal digits _ written =>
    have inside : '&' ∉ digits := written.not_mem (by decide) (by decide)
    have inside' : ';' ∉ digits := written.not_mem (by decide) (by decide)
    simp [noMark, noEnd, inside, inside']

theorem IsReference.enclosed : Enclosed IsReference := by
  intro name c reference
  cases reference with
  | amp | lt | gt | quot | apos => decide
  | number number => exact IsNumber.enclosed (by decide) (by decide) name c number

theorem char_enclosed : Enclosed fun name c => char name = some c := by
  intro name c named
  rcases char_eq_some_iff.1 named with reference | signed
  · exact IsReference.enclosed name c reference
  · exact IsNumber.enclosed (by decide) (by decide) name c signed

section

variable {names names' : List Char → Char → Prop} {text result : List Char}

theorem Replaces.mono (replaced : Replaces names text result)
    (more : ∀ name c, names name c → names' name c) : Replaces names' text result := by
  induction replaced with
  | nil => exact .nil
  | plain plain _ ih => exact .plain plain ih
  | reference named _ ih => exact .reference (more _ _ named) ih

theorem Replaces.ampersandsBegin (replaced : Replaces names text result)
    (enclosed : Enclosed names) : AmpersandsBegin names text := by
  induction replaced with
  | nil => exact fun before after same => by simp at same
  | @plain c text result plain _ ih =>
    intro before after same
    cases before with
    | nil => exact absurd (List.cons.inj same).1 plain
    | cons d before => exact ih before after (List.cons.inj same).2
  | @reference name text result c named _ ih =>
    intro before after same
    cases before with
    | nil => exact ⟨name, c, text, named, ((List.cons.inj same).2).symm⟩
    | cons d before =>
      -- The next ampersand is not in the name, so that it stands behind the semicolon.
      obtain ⟨-, same⟩ := List.cons.inj same
      have noMark := (enclosed name c named).1
      rcases List.append_eq_append_iff.1 same with ⟨more, rfl, behind⟩ | ⟨more, rfl, behind⟩
      · cases more with
        | nil => cases behind
        | cons e more => exact ih more after (List.cons.inj behind).2
      · cases more with
        | nil => cases behind
        | cons e more =>
          obtain ⟨rfl, -⟩ := List.cons.inj behind
          exact absurd (by simp) noMark

theorem AmpersandsBegin.of_append {before : List Char}
    (begin : AmpersandsBegin names (before ++ text)) : AmpersandsBegin names text := by
  intro further after same
  apply begin (before ++ further)
  rw [same, List.append_assoc]

theorem AmpersandsBegin.exists_replaces (begin : AmpersandsBegin names text) :
    ∃ result, Replaces names text result := by
  induction length : text.length using Nat.strongRecOn generalizing text with
  | ind n ih =>
    subst length
    cases text with
    | nil => exact ⟨[], .nil⟩
    | cons d text =>
      by_cases mark : d = '&'
      · subst mark
        obtain ⟨name, c, rest, named, rfl⟩ := begin [] text rfl
        have shorter : rest.length < ('&' :: (name ++ ';' :: rest)).length := by
          simp only [List.length_cons, List.length_append]
          omega
        have behind : '&' :: (name ++ ';' :: rest) = ('&' :: (name ++ [';'])) ++ rest := by simp
        rw [behind] at begin
        obtain ⟨result, later⟩ := ih _ shorter begin.of_append rfl
        exact ⟨c :: result, .reference named later⟩
      · rw [← List.singleton_append] at begin
        obtain ⟨result, later⟩ := ih _ (Nat.lt_succ_self _) begin.of_append rfl
        exact ⟨d :: result, .plain mark later⟩

/-- A text has a result exactly if all its ampersands begin references. -/
theorem exists_replaces_iff (enclosed : Enclosed names) :
    (∃ result, Replaces names text result) ↔ AmpersandsBegin names text := by
  constructor
  · intro some_result
    obtain ⟨result, replaced⟩ := some_result
    exact replaced.ampersandsBegin enclosed
  · intro begin
    exact begin.exists_replaces

/-! ### Decoding -/

theorem decodeFrom_of_replaces (replaced : Replaces (fun name c => char name = some c) text result)
    (before : List Char) : decodeFrom before text = .ok (before.reverse ++ result) := by
  induction replaced generalizing before with
  | nil => simp [decodeFrom]
  | plain plain _ ih => simp [decodeFrom_cons plain, ih]
  | reference named _ ih =>
    simp [decodeFrom_reference (char_enclosed _ _ named).2 named, ih]

theorem replaces_of_decodeFrom {before : List Char}
    (decoded : decodeFrom before text = .ok result) :
    ∃ later, result = before.reverse ++ later ∧
      Replaces (fun name c => char name = some c) text later := by
  fun_induction decodeFrom before text generalizing result with
  | case1 before =>
    cases decoded
    exact ⟨[], (List.append_nil _).symm, .nil⟩
  | case2 => cases decoded
  | case3 before after name d behind here c named =>
    rename_i ih
    have split : after = name ++ d :: behind := by
      rw [← here]
      exact List.prefix_iff_eq_append.1 (List.takeWhile_prefix _) |>.symm
    have rest : after.dropWhile (fun d => decide (d ≠ ';')) = d :: behind := by
      apply List.append_cancel_left
      rw [← split]
      exact List.takeWhile_append_dropWhile
    have ends : d = ';' := by
      have stop := List.head?_dropWhile_not (fun d => decide (d ≠ ';')) after
      rw [rest] at stop
      simpa using stop
    have next : after.drop (name.length + 1) = behind := by
      rw [← List.drop_drop, here]
      rfl
    obtain ⟨later, rfl, replaced⟩ := ih decoded
    refine ⟨c :: later, by simp, ?_⟩
    rw [next] at replaced
    rw [split, ends]
    exact .reference named replaced
  | case4 => cases decoded
  | case5 before c rest plain ih =>
    obtain ⟨later, rfl, replaced⟩ := ih decoded
    exact ⟨c :: later, by simp, .plain plain replaced⟩

theorem decode_eq_ok_iff {raw text : String} :
    decode raw = .ok text ↔
      Replaces (fun name c => IsReference name c ∨ IsNumber ['+'] name c)
        raw.toList text.toList := by
  have named : (fun name c => char name = some c) =
      fun name c => IsReference name c ∨ IsNumber ['+'] name c :=
    funext fun name => funext fun c => propext char_eq_some_iff
  rw [← named, decode]
  constructor
  · intro decoded
    obtain ⟨result, read, rfl⟩ := ok_of_map decoded
    obtain ⟨later, rfl, replaced⟩ := replaces_of_decodeFrom read
    rwa [String.toList_ofList]
  · intro replaced
    rw [decodeFrom_of_replaces replaced []]
    exact congrArg Except.ok String.ofList_toList

/-- No number behind a plus sign begins in the text. -/
def Unsigned (text : List Char) : Prop :=
  ¬"&#+".toList <:+: text ∧ ¬"&#x+".toList <:+: text

theorem Unsigned.suffix (unsigned : Unsigned text) {rest : List Char} (behind : rest <:+ text) :
    Unsigned rest :=
  ⟨mt (·.trans behind.isInfix) unsigned.1, mt (·.trans behind.isInfix) unsigned.2⟩

/-- Without such numbers, the references are those of the language. -/
theorem Unsigned.replaces (unsigned : Unsigned text)
    (replaced : Replaces (fun name c => IsReference name c ∨ IsNumber ['+'] name c) text result) :
    Replaces IsReference text result := by
  induction replaced with
  | nil => exact .nil
  | plain plain _ ih => exact .plain plain (ih (unsigned.suffix (List.suffix_cons _ _)))
  | @reference name text result c named _ ih =>
    have behind : text <:+ '&' :: (name ++ ';' :: text) := ⟨'&' :: (name ++ [';']), by simp⟩
    refine .reference (named.resolve_right fun signed => ?_) (ih (unsigned.suffix behind))
    cases signed with
    | decimal written => exact unsigned.1 ⟨[], _, rfl⟩
    | hexadecimal written => exact unsigned.2 ⟨[], _, rfl⟩

theorem decode_eq_ok_iff_of_unsigned {raw text : String} (unsigned : Unsigned raw.toList) :
    decode raw = .ok text ↔ Replaces IsReference raw.toList text.toList :=
  decode_eq_ok_iff.trans ⟨unsigned.replaces, fun replaced => replaced.mono fun _ _ => .inl⟩

end

end Entity

end ScoreScript
