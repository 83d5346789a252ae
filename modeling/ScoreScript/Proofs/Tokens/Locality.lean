import ScoreScript.Proofs.Tokens.Spelling

/-!
What is read on a line depends on that line only. From two cursors that stand before the same bytes,
up to the end of the line, the same token is read, unless it goes on beyond that line
(`readToken_follows`). Neither where the cursors stand nor how the line ends has a part in it.
-/

namespace ScoreScript.Script

open Cursor Layout

/-- There is no line break among the bytes. -/
def Unbroken (bytes : List UInt8) : Prop :=
  ∀ b ∈ bytes, isLineBreak b = false

/-- The cursors stand before the same bytes, up to the end of the line. -/
def SameLine (c c' : Cursor) : Prop :=
  c.rest.takeWhile (!isLineBreak ·) = c'.rest.takeWhile (!isLineBreak ·)

/-- From the two cursors the same bytes of a line are passed. -/
def Follow (c c' d d' : Cursor) : Prop :=
  ∃ bytes, Unbroken bytes ∧ c.Crosses bytes d ∧ c'.Crosses bytes d'

section

variable {c c' d d' e e' : Cursor} {bytes : List UInt8} {b : UInt8}

/-- What holds of no sign of a line break holds inside of lines only. -/
theorem inLine_of {q : UInt8 → Bool} (feed : q 0x0A = false) (carriage : q 0x0D = false)
    (sat : q b = true) : isLineBreak b = false := by
  rw [isLineBreak, Bool.or_eq_false_iff, beq_eq_false_iff_ne, beq_eq_false_iff_ne]
  constructor
  · intro same
    rw [same, feed] at sat
    cases sat
  · intro same
    rw [same, carriage] at sat
    cases sat

theorem rest_of_current (here : c.current = some b) : c.rest = b :: c.advance.rest := by
  obtain ⟨rest, split⟩ := List.head?_eq_some_iff.1 here
  rw [advance, rest_advanceBy, split]
  rfl

theorem take_of_current {n : Nat} (pos : 0 < n) (here : c.current = some b) :
    c.rest.take n = b :: c.advance.rest.take (n - 1) := by
  rw [rest_of_current here, List.take_cons pos]

theorem inLine_of_take {n : Nat} (unbroken : Unbroken (c.rest.take n)) (pos : 0 < n)
    (here : c.current = some b) : isLineBreak b = false := by
  apply unbroken b
  rw [take_of_current pos here]
  exact List.mem_cons_self

namespace Follow

theorem refl : Follow c c' c c' :=
  ⟨[], List.forall_mem_nil _, ⟨rfl, rfl⟩, ⟨rfl, rfl⟩⟩

theorem trans (h : Follow c c' d d') (h' : Follow d d' e e') : Follow c c' e e' := by
  obtain ⟨bytes, unbroken, crosses, crosses'⟩ := h
  obtain ⟨more, unbroken', further, further'⟩ := h'
  exact ⟨bytes ++ more, List.forall_mem_append.2 ⟨unbroken, unbroken'⟩, crosses.trans further,
    crosses'.trans further'⟩

/-- Behind the same bytes the rest of the line is the same. -/
theorem sameLine (h : Follow c c' d d') (same : SameLine c c') : SameLine d d' := by
  obtain ⟨bytes, unbroken, crosses, crosses'⟩ := h
  have all : ∀ b ∈ bytes, (!isLineBreak b) = true := fun b member => by simp [unbroken b member]
  rw [SameLine, crosses.rest, crosses'.rest, List.takeWhile_append_of_pos all,
    List.takeWhile_append_of_pos all] at same
  exact List.append_cancel_left same

end Follow

namespace SameLine

theorem symm (same : SameLine c c') : SameLine c' c :=
  Eq.symm same

theorem leads (same : SameLine c c') (unbroken : Unbroken bytes) (here : bytes <+: c.rest) :
    bytes <+: c'.rest := by
  obtain ⟨rest, split⟩ := here
  have all : ∀ b ∈ bytes, (!isLineBreak b) = true := fun b member => by simp [unbroken b member]
  rw [SameLine, ← split, List.takeWhile_append_of_pos all] at same
  exact (List.prefix_append _ _).trans (same ▸ List.takeWhile_prefix _)

theorem leads_iff (same : SameLine c c') (unbroken : Unbroken bytes) :
    bytes <+: c.rest ↔ bytes <+: c'.rest :=
  ⟨same.leads unbroken, same.symm.leads unbroken⟩

theorem follow (same : SameLine c c') (unbroken : Unbroken bytes) (here : bytes <+: c.rest) :
    Follow c c' (c.advanceBy bytes.length) (c'.advanceBy bytes.length) :=
  ⟨bytes, unbroken, .of_leads here, .of_leads (same.leads unbroken here)⟩

theorem current (same : SameLine c c') (inLine : isLineBreak b = false)
    (here : c.current = some b) : c'.current = some b := by
  obtain ⟨rest, split⟩ :=
    same.leads (List.forall_mem_singleton.2 inLine) ⟨_, (rest_of_current here).symm⟩
  rw [Cursor.current, ← split]
  rfl

theorem current_iff (same : SameLine c c') (inLine : isLineBreak b = false) :
    c.current = some b ↔ c'.current = some b :=
  ⟨same.current inLine, same.symm.current inLine⟩

theorem any (same : SameLine c c') {q : UInt8 → Bool} (feed : q 0x0A = false)
    (carriage : q 0x0D = false) : c.current.any q = c'.current.any q := by
  rw [Bool.eq_iff_iff, Option.any_eq_true, Option.any_eq_true]
  constructor
  · intro found
    obtain ⟨b, here, sat⟩ := found
    exact ⟨b, same.current (inLine_of feed carriage sat) here, sat⟩
  · intro found
    obtain ⟨b, here, sat⟩ := found
    exact ⟨b, same.symm.current (inLine_of feed carriage sat) here, sat⟩

theorem look (same : SameLine c c') {sign : Char} (inLine : isLineBreak sign.toUInt8 = false)
    (here : c.look = some sign) : c'.look = some sign := by
  obtain ⟨b, first, rfl⟩ := Option.map_eq_some_iff.1 here
  rw [toUInt8_ofUInt8] at inLine
  exact look_of_current (same.current inLine first)

theorem look_iff (same : SameLine c c') {l : Char} (inLine : isLineBreak l.toUInt8 = false) :
    c.look = some l ↔ c'.look = some l :=
  ⟨same.look inLine, same.symm.look inLine⟩

/-- What comes next is the same, or neither line goes on. -/
theorem look_cases (same : SameLine c c') :
    c.look = c'.look ∨
      (c.look = none ∨ c.look = some '\n' ∨ c.look = some '\r') ∧
        (c'.look = none ∨ c'.look = some '\n' ∨ c'.look = some '\r') := by
  have ends {d : Cursor} (none : ∀ b, d.current = some b → isLineBreak b = true) :
      d.look = Option.none ∨ d.look = some '\n' ∨ d.look = some '\r' := by
    cases first : d.current with
    | none => exact .inl (by rw [Cursor.look, first]; rfl)
    | some b =>
      have sign : b = 0x0A ∨ b = 0x0D := by simpa [isLineBreak] using none b first
      rcases sign with rfl | rfl
      · exact .inr (.inl (look_of_current first))
      · exact .inr (.inr (look_of_current first))
  by_cases goes : ∃ b, c.current = some b ∧ isLineBreak b = false
  · obtain ⟨b, here, inLine⟩ := goes
    exact .inl ((look_of_current here).trans (look_of_current (same.current inLine here)).symm)
  · refine .inr ⟨ends fun b here => ?_, ends fun b here => ?_⟩
    · by_contra inLine
      exact goes ⟨b, here, eq_false_of_ne_true inLine⟩
    · by_contra inLine
      have inLine := eq_false_of_ne_true inLine
      exact goes ⟨b, same.symm.current inLine here, inLine⟩

theorem advance (same : SameLine c c') (inLine : isLineBreak b = false)
    (here : c.current = some b) : Follow c c' c.advance c'.advance :=
  same.follow (List.forall_mem_singleton.2 inLine) ⟨_, (rest_of_current here).symm⟩

/-- The bytes in front that satisfy `q`, as no line break does, are the same. -/
theorem takeWhile (same : SameLine c c') {q : UInt8 → Bool} (feed : q 0x0A = false)
    (carriage : q 0x0D = false) : c.rest.takeWhile q = c'.rest.takeWhile q := by
  have inLine (rest : List UInt8) :
      rest.takeWhile q = (rest.takeWhile (!isLineBreak ·)).takeWhile q := by
    rw [List.takeWhile_takeWhile]
    congr 1
    funext b
    cases sat : q b with
    | false => rfl
    | true => simp [inLine_of feed carriage sat]
  rw [inLine, inLine c'.rest, same]

theorem skipWhile (same : SameLine c c') {q : UInt8 → Bool} (feed : q 0x0A = false)
    (carriage : q 0x0D = false) : Follow c c' (c.skipWhile q) (c'.skipWhile q) := by
  have unbroken : Unbroken (c.rest.takeWhile q) :=
    fun b member => inLine_of feed carriage (List.mem_takeWhile_imp member)
  exact ⟨_, unbroken, .of_skipWhile c q, same.takeWhile feed carriage ▸ .of_skipWhile c' q⟩

theorem take (same : SameLine c c') {n : Nat} (unbroken : Unbroken (c.rest.take n))
    (long : n ≤ c.rest.length) : c'.rest.take n = c.rest.take n := by
  have leads := List.prefix_iff_eq_take.1 (same.leads unbroken (List.take_prefix n c.rest))
  rw [List.length_take, Nat.min_eq_left long] at leads
  exact leads.symm

theorem advanceBy (same : SameLine c c') {n : Nat} (unbroken : Unbroken (c.rest.take n))
    (long : n ≤ c.rest.length) : Follow c c' (c.advanceBy n) (c'.advanceBy n) := by
  have follow := same.follow unbroken (List.take_prefix n c.rest)
  rwa [List.length_take, Nat.min_eq_left long] at follow

end SameLine

end

/-! ### Numbers -/

namespace Literal

variable {c c' d : Cursor} {kind : TokenKind} {b : UInt8}

theorem fraction_follows (same : SameLine c c') :
    (fraction c).isSome = (fraction c').isSome ∧
      Follow c c' ((fraction c).getD c) ((fraction c').getD c') := by
  have inLine : isLineBreak 0x2E = false := by decide
  by_cases point : c.current = some 0x2E
  · have point' := same.current inLine point
    have first := same.advance inLine point
    rw [fraction, fraction, consume?, consume?, if_pos point, if_pos point']
    exact ⟨rfl, first.trans ((first.sameLine same).skipWhile rfl rfl)⟩
  · have point' : c'.current ≠ some 0x2E := mt (same.current_iff inLine).2 point
    rw [fraction, fraction, consume?, consume?, if_neg point, if_neg point']
    exact ⟨rfl, .refl⟩

/-- A sign of two that may stand here is passed. -/
theorem optional_follows (same : SameLine c c') {first second : Char}
    (inLine : isLineBreak first.toUInt8 = false) (inLine' : isLineBreak second.toUInt8 = false) :
    Follow c c' (if c.look = some first ∨ c.look = some second then c.advance else c)
      (if c'.look = some first ∨ c'.look = some second then c'.advance else c') := by
  simp only [same.look_iff inLine, same.look_iff inLine']
  split
  · rename_i sign
    rcases sign with here | here
    · exact same.advance inLine (same.symm.current inLine (current_of_look here))
    · exact same.advance inLine' (same.symm.current inLine' (current_of_look here))
  · exact .refl

theorem exponent_follows {start : Cursor} (start' : Cursor) {raised : Option Cursor}
    (same : SameLine c c') (read : exponent start c = .ok raised) :
    ∃ raised', exponent start' c' = .ok raised' ∧ raised'.isSome = raised.isSome ∧
      Follow c c' (raised.getD c) (raised'.getD c') := by
  unfold exponent at read ⊢
  have mark {sign : Char} (inLine : isLineBreak sign.toUInt8 = false) (here : c.look = some sign) :
      Follow c c' c.advance c'.advance := same.advance inLine (current_of_look here)
  split at read
  · rename_i raises
    have advanced : Follow c c' c.advance c'.advance := by
      rcases raises with here | here
      · exact mark (by decide) here
      · exact mark (by decide) here
    rw [same.look_iff (by decide), same.look_iff (by decide)] at raises
    rw [if_pos raises]
    have sign : Follow c.advance c'.advance
        (if c.advance.look = some '+' ∨ c.advance.look = some '-' then c.advance.advance
          else c.advance)
        (if c'.advance.look = some '+' ∨ c'.advance.look = some '-' then c'.advance.advance
          else c'.advance) := optional_follows (advanced.sameLine same) (by decide) (by decide)
    have signed := advanced.trans sign
    dsimp only at read ⊢
    generalize (if c.advance.look = some '+' ∨ c.advance.look = some '-' then c.advance.advance
      else c.advance) = d at read signed
    generalize (if c'.advance.look = some '+' ∨ c'.advance.look = some '-' then c'.advance.advance
      else c'.advance) = d' at signed ⊢
    have digits := (signed.sameLine same).any (q := isDigit) rfl rfl
    have passed := signed.trans ((signed.sameLine same).skipWhile (q := isDigitByte) rfl rfl)
    rw [← digits]
    split at read <;> cases read
    exact ⟨_, if_pos ‹_›, rfl, passed⟩
  · rename_i raises
    cases read
    rw [same.look_iff (by decide), same.look_iff (by decide)] at raises
    exact ⟨none, if_neg raises, rfl, .refl⟩

theorem decimalEnd_follows {isFloat : Bool} (same : SameLine c c')
    (read : decimalEnd c = .ok (d, isFloat)) :
    ∃ d', decimalEnd c' = .ok (d', isFloat) ∧ Follow c c' d d' := by
  obtain ⟨raised, exponent, ⟨⟩⟩ := ok_of_bind read
  have whole := same.skipWhile (q := isDigitByte) rfl rfl
  obtain ⟨isSome, further⟩ := fraction_follows (whole.sameLine same)
  have pointed := whole.trans further
  obtain ⟨raised', exponent', isSome', last⟩ :=
    exponent_follows c' (pointed.sameLine same) exponent
  refine ⟨_, ?_, pointed.trans last⟩
  change (Literal.exponent c' _ >>= _) = _
  rw [exponent', isSome, ← isSome']
  rfl

theorem peek_one (c : Cursor) : c.peek 1 = c.advance.current := by
  rw [peek, Cursor.current, advance, rest_advanceBy, List.head?_drop]

theorem lookAt_one (c : Cursor) : c.lookAt 1 = c.advance.look := by
  rw [lookAt, peek_one, Cursor.look]

/-- A zero at the end of a line has no mark of a base behind it. -/
theorem baseOf_lineEnd
    (ends : c.advance.look = none ∨ c.advance.look = some '\n' ∨ c.advance.look = some '\r') :
    baseOf c = 10 := by
  by_cases zero : c.look = some '0'
  · rw [baseOf, if_pos zero, lookAt_one]
    rcases ends with look | look | look
    · rw [look]
    · rw [look]
      rfl
    · rw [look]
      rfl
  · exact if_neg zero

theorem baseOf_eq (same : SameLine c c') : baseOf c = baseOf c' := by
  by_cases zero : c.look = some '0'
  · have zero' := same.look (by decide) zero
    have next := (same.advance (by decide) (current_of_look zero)).sameLine same
    rcases next.look_cases with look | ⟨ends, ends'⟩
    · rw [baseOf, baseOf, if_pos zero, if_pos zero', lookAt_one, lookAt_one, look]
    · rw [baseOf_lineEnd ends, baseOf_lineEnd ends']
  · rw [baseOf, baseOf, if_neg zero, if_neg (mt (same.look_iff (by decide)).2 zero)]

/-- Another base than ten is told by two signs. -/
theorem exists_of_baseOf_ne (other : baseOf c ≠ 10) :
    ∃ second, [0x30, second] <+: c.rest ∧ isLineBreak second = false := by
  by_cases zero : c.look = some '0'
  · have found {sign : Char} (here : c.lookAt 1 = some sign)
        (inLine : isLineBreak sign.toUInt8 = false) :
        ∃ second, [0x30, second] <+: c.rest ∧ isLineBreak second = false := by
      rw [lookAt_one] at here
      refine ⟨sign.toUInt8, ⟨c.advance.advance.rest, ?_⟩, inLine⟩
      rw [rest_of_current (current_of_look zero), rest_of_current (current_of_look here)]
      rfl
    rw [baseOf, if_pos zero] at other
    split at other
    iterate 6
      rename_i here
      exact found here (by decide)
    exact absurd rfl other
  · exact absurd (if_neg zero) other

theorem numberEnd_follows {isFloat : Bool} (same : SameLine c c')
    (read : numberEnd c = .ok (d, isFloat)) :
    ∃ d', numberEnd c' = .ok (d', isFloat) ∧ Follow c c' d d' := by
  unfold numberEnd at read ⊢
  rw [← baseOf_eq same]
  split at read
  · rename_i ten
    rw [if_pos ten]
    exact decimalEnd_follows same read
  · rename_i other
    cases read
    rw [if_neg other]
    obtain ⟨second, leads, inLine⟩ := exists_of_baseOf_ne other
    have unbroken : Unbroken [0x30, second] :=
      List.forall_mem_cons.2 ⟨by decide, List.forall_mem_singleton.2 inLine⟩
    have mark := same.follow unbroken leads
    exact ⟨_, rfl, mark.trans ((mark.sameLine same).skipWhile rfl rfl)⟩

theorem readNumber_follows (same : SameLine c c') (read : readNumber c = .ok (kind, d)) :
    ∃ d', readNumber c' = .ok (kind, d') ∧ Follow c c' d d' := by
  obtain ⟨⟨stop, isFloat⟩, ended, read⟩ := ok_of_bind read
  obtain ⟨stop', ended', follow⟩ := numberEnd_follows same ended
  have next := (follow.sameLine same).any (q := isIdentByte) rfl rfl
  have bytes : written c stop = written c' stop' := by
    obtain ⟨bytes, -, crosses, crosses'⟩ := follow
    rw [written, written, crosses.upTo_eq, crosses'.upTo_eq]
  dsimp only at read
  rw [baseOf_eq same, bytes, next] at read
  cases spelled : numberKind (baseOf c') isFloat (written c' stop') with
  | none =>
    rw [spelled] at read
    cases read
  | some number =>
    rw [spelled] at read
    dsimp only at read
    split at read <;> cases read
    rename_i fits
    refine ⟨stop', ?_, follow⟩
    rw [readNumber, ended']
    simp only [bind, Except.bind, spelled, if_neg fits]
    rfl

/-! ### Strings -/

theorem peekBytes_iff (same : SameLine c c') {word : List UInt8} (unbroken : Unbroken word)
    {n : Nat} : c.peekBytes n = some word ↔ c'.peekBytes n = some word := by
  rw [peekBytes_eq_some_iff, peekBytes_eq_some_iff, same.leads_iff unbroken]

theorem ok_of_numbered {p q : Pos} {n : Option Nat} {length : Nat} {result : List UInt8 × Nat}
    (read : numbered p n length = .ok result) : numbered q n length = .ok result := by
  unfold numbered at read ⊢
  split at read
  · exact read
  · cases read

/-- What a backslash before a letter stands for. -/
theorem escape_letter {letter : Char} (here : c.look = some letter) (noFeed : letter ≠ '\n')
    (noCarriage : letter ≠ '\r') (noName : letter ≠ 'N') :
    escape c =
      match escapeOf letter, hexCount letter with
      | some char, _ => .ok (String.utf8EncodeChar char, 1)
      | none, some count =>
        let digits := ((c.rest.drop 1).take count).map Char.ofUInt8
        let n := if digits.length = count then number? 16 charLimit digits else none
        numbered c.pos n (count + 1)
      | none, none =>
        let digits := ((c.rest.take 3).map Char.ofUInt8).takeWhile fun d => (digit? 8 d).isSome
        if digits.isEmpty then .ok ([0x5C], 0)
        else numbered c.pos (number? 8 charLimit digits) digits.length := by
  unfold escape
  rw [here]
  split
  · rename_i none
    cases none
  · rename_i feed
    exact absurd (Option.some.inj feed) noFeed
  · rename_i carriage
    exact absurd (Option.some.inj carriage) noCarriage
  · rename_i name
    exact absurd (Option.some.inj name) noName
  · rename_i same
    cases same
    rfl

/-- Octal digits after a backslash end with the line. -/
theorem octal_sameLine (same : SameLine c c') :
    ((c.rest.take 3).map Char.ofUInt8).takeWhile (fun d => (digit? 8 d).isSome) =
      ((c'.rest.take 3).map Char.ofUInt8).takeWhile fun d => (digit? 8 d).isSome := by
  rw [List.takeWhile_map, List.takeWhile_map, ← List.take_takeWhile, ← List.take_takeWhile,
    same.takeWhile rfl rfl]

/-- An escape that does not end the line stands for no line break, and it names no character. -/
theorem letter_of_escape {bytes : List UInt8} {length : Nat}
    (read : escape c = .ok (bytes, length)) (unbroken : Unbroken (c.rest.take length))
    (here : c.current = some b) : isLineBreak b = false ∧ Char.ofUInt8 b ≠ 'N' := by
  rw [escape, look_of_current here] at read
  constructor
  · by_contra ends
    have sign : b = 0x0A ∨ b = 0x0D := by
      simpa [isLineBreak] using eq_true_of_ne_false ends
    have pos : 0 < length := by
      rcases sign with rfl | rfl
      · cases read
        exact Nat.one_pos
      · cases read
        split <;> omega
    exact ends (inLine_of_take unbroken pos here)
  · intro name
    rw [name] at read
    cases read

theorem ofUInt8_ne {char : Char} (inLine : isLineBreak b = false)
    (ends : isLineBreak char.toUInt8 = true) : Char.ofUInt8 b ≠ char := by
  intro same
  rw [← same, toUInt8_ofUInt8, inLine] at ends
  cases ends

theorem escape_sameLine (same : SameLine c c') {bytes : List UInt8} {length : Nat}
    (read : escape c = .ok (bytes, length)) (unbroken : Unbroken (c.rest.take length)) :
    escape c' = .ok (bytes, length) := by
  cases here : c.current with
  | none =>
    rw [escape, Cursor.look, here] at read
    cases read
  | some b =>
    obtain ⟨inLine, noName⟩ := letter_of_escape read unbroken here
    have noFeed : Char.ofUInt8 b ≠ '\n' := ofUInt8_ne inLine rfl
    have noCarriage : Char.ofUInt8 b ≠ '\r' := ofUInt8_ne inLine rfl
    have here' := same.current inLine here
    rw [escape_letter (look_of_current here) noFeed noCarriage noName] at read
    rw [escape_letter (look_of_current here') noFeed noCarriage noName]
    cases named : escapeOf (Char.ofUInt8 b) with
    | some char =>
      rw [named] at read
      exact read
    | none =>
      rw [named] at read
      cases counted : hexCount (Char.ofUInt8 b) with
      | none =>
        rw [counted] at read
        dsimp only at read ⊢
        rw [octal_sameLine same] at read
        split at read
        · rw [if_pos ‹_›]
          exact read
        · rw [if_neg ‹_›]
          exact ok_of_numbered read
      | some count =>
        rw [counted] at read
        dsimp only at read ⊢
        obtain ⟨char, number, -, rfl⟩ := numbered_ok read
        obtain ⟨all, -⟩ := Option.ite_none_right_eq_some.1 number
        rw [List.length_map, List.length_take, List.length_drop] at all
        have long : count + 1 ≤ c.rest.length := by
          have pos := length_pos_of_current here
          omega
        have taken := congrArg (List.drop 1) (same.take unbroken long)
        rw [List.drop_take, List.drop_take, Nat.add_sub_cancel] at taken
        rw [taken]
        exact ok_of_numbered read

/-- How many bytes a part of a literal takes. -/
def StringPart.length : StringPart → Nat
  | close length => length
  | bytes _ extra => extra + 1

theorem length_pos_of_stringPart {quotes : Quotes} {form : StringForm} {start : Pos}
    {part : StringPart} (read : stringPart quotes form start c b = .ok part) : 0 < part.length := by
  cases part with
  | bytes bytes extra => exact Nat.succ_pos extra
  | close n =>
    obtain ⟨-, rfl | ⟨rfl, -⟩⟩ := close_of_stringPart read
    · exact Nat.one_pos
    · exact Nat.succ_pos 2

/-- The same part stands on both lines, if it does not end the first line, and if a backslash is not
all that is left. -/
theorem stringPart_sameLine {quotes : Quotes} {form : StringForm} {start : Pos} (start' : Pos)
    {part : StringPart} (same : SameLine c c') (here : c.current = some b)
    (read : stringPart quotes form start c b = .ok part)
    (unbroken : Unbroken (c.rest.take part.length)) (more : b ≠ quotes.mark → 1 < c.rest.length) :
    stringPart quotes form start' c' b = .ok part := by
  have pos := length_pos_of_stringPart read
  have inLine := inLine_of_take unbroken pos here
  have behind := (same.advance inLine here).sameLine same
  rw [take_of_current pos here, Unbroken, List.forall_mem_cons] at unbroken
  unfold stringPart at read ⊢
  by_cases mark : b = quotes.mark
  · rw [if_pos mark] at read ⊢
    by_cases single : (!quotes.triple) = true
    · rw [if_pos single] at read ⊢
      exact read
    · have three : Unbroken [b, b, b] := by simp [Unbroken, inLine]
      rw [if_neg single] at read ⊢
      simp only [← peekBytes_iff same three]
      exact read
  have noBreak : ¬((b = 0x0A ∨ b = 0x0D) ∧ (!quotes.triple) = true) := by
    intro ends
    rcases ends.1 with rfl | rfl <;> cases inLine
  rw [if_neg mark, if_neg noBreak] at read ⊢
  by_cases slash : b = 0x5C
  · rw [if_pos slash] at read ⊢
    by_cases raw : form.raw = true
    · rw [if_pos raw, peek_one] at read ⊢
      cases second : c.advance.current with
      | none =>
        have long := more mark
        rw [rest_of_current here, List.head?_eq_none_iff.1 second] at long
        exact absurd long (Nat.lt_irrefl 1)
      | some d =>
        rw [second] at read
        cases read
        rw [behind.current (inLine_of_take unbroken.2 Nat.one_pos second) second]
    · rw [if_neg raw] at read ⊢
      obtain ⟨⟨bytes, length⟩, escaped, rfl⟩ := ok_of_map read
      rw [escape_sameLine behind escaped unbroken.2]
      rfl
  · rw [if_neg slash] at read ⊢
    exact read

theorem stringRest_close {quotes : Quotes} {form : StringForm} {start : Pos} {n : Nat}
    {before : List UInt8} (here : c.current = some b)
    (part : stringPart quotes form start c b = .ok (.close n)) :
    stringRest quotes form start c before = closeString form start before (c.advanceBy n) := by
  obtain ⟨rest, p⟩ := c
  obtain ⟨rest, rfl⟩ := List.head?_eq_some_iff.1 here
  rw [stringRest.eq_def]
  simp only [part]

theorem stringRest_more {quotes : Quotes} {form : StringForm} {start : Pos} {extra : Nat}
    {bytes before : List UInt8} (here : c.current = some b)
    (part : stringPart quotes form start c b = .ok (.bytes bytes extra)) :
    stringRest quotes form start c before =
      stringRest quotes form start (c.advanceBy (extra + 1)) (bytes.reverse ++ before) := by
  obtain ⟨rest, p⟩ := c
  obtain ⟨rest, rfl⟩ := List.head?_eq_some_iff.1 here
  rw [stringRest.eq_def]
  simp only [part]

theorem closeString_eq {form : StringForm} {start : Pos} {before : List UInt8}
    (read : closeString form start before c = .ok (kind, d)) :
    d = c ∧ ∀ start' c', closeString form start' before c' = .ok (kind, c') := by
  unfold closeString at read
  split at read <;> cases read
  rename_i value spelled
  refine ⟨rfl, fun start' c' => ?_⟩
  rw [closeString, spelled]

/-- A literal does not end with the text before its quotes. -/
theorem length_pos_of_stringRest {quotes : Quotes} {form : StringForm} {start : Pos}
    {before : List UInt8} (read : stringRest quotes form start c before = .ok (kind, d)) :
    0 < c.rest.length := by
  cases here : c.rest with
  | nil =>
    rw [stringRest.eq_def] at read
    split at read
    · cases read
    · rename_i some_byte
      rw [here] at some_byte
      cases some_byte
  | cons b rest => exact Nat.succ_pos _

theorem stringRest_follows {quotes : Quotes} {form : StringForm} {start : Pos} (start' : Pos)
    {before bytes : List UInt8} (same : SameLine c c')
    (read : stringRest quotes form start c before = .ok (kind, d)) (crosses : c.Crosses bytes d)
    (unbroken : Unbroken bytes) :
    ∃ d', stringRest quotes form start' c' before = .ok (kind, d') ∧ Follow c c' d d' := by
  -- Each part is passed on both lines, behind which they are the same again.
  fun_induction stringRest quotes form start c before generalizing c' bytes with
  | case1 => cases read
  | case2 => cases read
  | case3 c before b rest here length part =>
    have first : c.current = some b := by rw [Cursor.current, here]; rfl
    obtain ⟨rfl, closed⟩ := closeString_eq read
    obtain ⟨mark, quotes⟩ := close_of_stringPart part
    have long : length ≤ c.rest.length := by
      rcases quotes with rfl | ⟨rfl, three⟩
      · exact length_pos_of_current first
      · exact (peekBytes_eq_some_iff.1 three).1.length_le
    rw [crosses.unique (.of_advanceBy c length)] at unbroken
    have part' := stringPart_sameLine start' same first part unbroken (absurd mark)
    have inLine := inLine_of_take unbroken (length_pos_of_stringPart part) first
    refine ⟨_, ?_, same.advanceBy unbroken long⟩
    rw [stringRest_close (same.current inLine first) part', closed]
  | case4 c before b rest here more extra part less ih =>
    have first : c.current = some b := by rw [Cursor.current, here]; rfl
    have goes := length_pos_of_stringRest read
    rw [length_advanceBy] at goes
    obtain ⟨last, further⟩ := Crosses.of_movesTo (stringRest_moves read)
    rw [crosses.unique ((Crosses.of_advanceBy c (extra + 1)).trans further), Unbroken,
      List.forall_mem_append] at unbroken
    have part' := stringPart_sameLine start' same first part unbroken.1
      fun _ => by omega
    have follow := same.advanceBy unbroken.1 (by omega)
    obtain ⟨d', read', follow'⟩ := ih (follow.sameLine same) read further unbroken.2
    have inLine := inLine_of_take unbroken.1 (Nat.succ_pos extra) first
    refine ⟨d', ?_, follow.trans follow'⟩
    rw [stringRest_more (same.current inLine first) part', read']

theorem readString_follows {form : StringForm} {bytes : List UInt8} (same : SameLine c c')
    (read : readString form c = .ok (kind, d)) (crosses : c.Crosses bytes d)
    (unbroken : Unbroken bytes) :
    ∃ d', readString form c' = .ok (kind, d') ∧ Follow c c' d d' := by
  unfold readString at read ⊢
  cases first : c.current with
  | none =>
    rw [first] at read
    cases read
  | some mark =>
    rw [first] at read
    dsimp only at read
    generalize wide :
      (if (c.peekBytes 3 == some [mark, mark, mark]) = true then 3 else 1) = n at read
    obtain ⟨last, further⟩ := Crosses.of_movesTo (stringRest_moves read)
    rw [crosses.unique ((Crosses.of_advanceBy c n).trans further), Unbroken,
      List.forall_mem_append] at unbroken
    have pos : 0 < n := by
      rw [← wide]
      split <;> omega
    have long : n ≤ c.rest.length := by
      rw [← wide]
      split
      · rename_i three
        exact (peekBytes_eq_some_iff.1 (beq_iff_eq.1 three)).1.length_le
      · exact length_pos_of_current first
    have inLine := inLine_of_take unbroken.1 pos first
    have three : Unbroken [mark, mark, mark] := by simp [Unbroken, inLine]
    have tripled : (c'.peekBytes 3 == some [mark, mark, mark]) =
        (c.peekBytes 3 == some [mark, mark, mark]) := by
      rw [Bool.eq_iff_iff, beq_iff_eq, beq_iff_eq, peekBytes_iff same three]
    have follow := same.advanceBy unbroken.1 long
    obtain ⟨d', read', follow'⟩ :=
      stringRest_follows c'.pos (follow.sameLine same) read further unbroken.2
    refine ⟨d', ?_, follow.trans follow'⟩
    rw [same.current inLine first]
    dsimp only
    rw [tripled, wide, read']

end Literal

namespace Layout

variable {c c' d : Cursor} {kind : TokenKind} {b : UInt8} {bytes : List UInt8}

theorem readWord_follows (same : SameLine c c') (read : readWord c = .ok (kind, d))
    (crosses : c.Crosses bytes d)
    (line : ∀ value form, kind = .string value form → Unbroken bytes) :
    ∃ d', readWord c' = .ok (kind, d') ∧ Follow c c' d d' := by
  have follow := same.skipWhile (q := Literal.isIdentByte) rfl rfl
  have behind := follow.sameLine same
  have word : c'.upTo (c'.skipWhile Literal.isIdentByte) =
      c.upTo (c.skipWhile Literal.isIdentByte) := by
    rw [upTo_skipWhile, upTo_skipWhile, same.takeWhile rfl rfl]
  unfold readWord at read ⊢
  dsimp only at read ⊢
  rw [word]
  simp only [← behind.look_iff (l := '"') (by decide),
    ← behind.look_iff (l := '\'') (by decide)]
  split at read
  · cases read
  · split at read
    · obtain ⟨value, rfl⟩ := Literal.string_of_readString read
      obtain ⟨last, further⟩ := Crosses.of_movesTo (Literal.readString_moves read)
      have unbroken := line value _ rfl
      rw [crosses.unique ((Crosses.of_skipWhile c _).trans further), Unbroken,
        List.forall_mem_append] at unbroken
      obtain ⟨d', read', follow'⟩ := Literal.readString_follows behind read further unbroken.2
      exact ⟨d', read', follow.trans follow'⟩
    · cases read
      exact ⟨_, rfl, follow⟩
    · cases read
      exact ⟨_, rfl, follow⟩

theorem unbroken_text (op : Operator) : Unbroken (utf8 op.text) := by
  unfold Unbroken
  cases op <;> decide +kernel

theorem readOperator_follows (same : SameLine c c') (read : readOperator c b = .ok (kind, d)) :
    ∃ d', readOperator c' b = .ok (kind, d') ∧ Follow c c' d d' := by
  have stands (op : Operator) : c.startsWith op.text = c'.startsWith op.text := by
    rw [Bool.eq_iff_iff, startsWith_text_iff, startsWith_text_iff]
    exact same.leads_iff (unbroken_text op)
  unfold readOperator at read ⊢
  simp only [← stands]
  split at read <;> cases read
  rename_i sign found
  have here : c.startsWith sign.text = true := by simpa using List.find?_some found
  have follow := same.follow (unbroken_text sign) (startsWith_text_iff.1 here)
  rw [Operator.length_utf8_text] at follow
  exact ⟨_, rfl, follow⟩

/-- On two lines that are the same the same token is read, unless it is a string that goes on on
the next line. -/
theorem readToken_follows (same : SameLine c c') (here : c.current = some b)
    (read : readToken c b = .ok (kind, d)) (crosses : c.Crosses bytes d)
    (line : ∀ value form, kind = .string value form → Unbroken bytes) :
    ∃ d', readToken c' b = .ok (kind, d') ∧ Follow c c' d d' := by
  have number : (isDigit b = true ∨ b = 0x2E ∧ (c.peek 1).any isDigit = true) ↔
      (isDigit b = true ∨ b = 0x2E ∧ (c'.peek 1).any isDigit = true) := by
    refine or_congr_right (and_congr_right fun dot => ?_)
    have next := (same.advance (by rw [dot]; rfl) here).sameLine same
    rw [Literal.peek_one, Literal.peek_one, next.any rfl rfl]
  unfold readToken at read ⊢
  simp only [← number]
  split at read
  · rename_i quote
    rw [if_pos quote]
    obtain ⟨value, rfl⟩ := Literal.string_of_readString read
    exact Literal.readString_follows same read crosses (line value _ rfl)
  · rename_i noQuote
    rw [if_neg noQuote]
    split at read
    · rename_i digits
      rw [if_pos digits]
      exact Literal.readNumber_follows same read
    · rename_i noDigits
      rw [if_neg noDigits]
      split at read
      · rename_i start
        rw [if_pos start]
        exact readWord_follows same read crosses line
      · rename_i noStart
        rw [if_neg noStart]
        exact readOperator_follows same read

end Layout

end ScoreScript.Script
