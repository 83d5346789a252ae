import Mathlib.Data.List.Basic
import ScoreScript.Decimal.Digits
import ScoreScript.Text.Utf8

/-!
Texts and their bytes. A text can be read back from its bytes, and a byte below `0x80` occurs in
them only as the character that it is.
-/

namespace ScoreScript

theorem utf8_append (a b : String) : utf8 (a ++ b) = utf8 a ++ utf8 b := by
  rw [utf8, String.toList_append, List.flatMap_append]
  rfl

theorem utf8_ofList (cs : List Char) :
    utf8 (String.ofList cs) = cs.flatMap String.utf8EncodeChar := by
  rw [utf8, String.toList_ofList]

theorem ofUtf8?_utf8 (text : String) : ofUtf8? (utf8 text) = some text := by
  have bytes : (⟨(utf8 text).toArray⟩ : ByteArray) = text.toByteArray := by
    apply ByteArray.ext
    rw [← String.utf8Encode_toList]
    simp [List.utf8Encode, utf8]
  unfold ofUtf8? String.fromUTF8?
  rw [bytes, dif_pos text.isValidUTF8]
  rfl

theorem utf8_of_ofUtf8? {bytes : List UInt8} {text : String} (read : ofUtf8? bytes = some text) :
    utf8 text = bytes := by
  unfold ofUtf8? String.fromUTF8? at read
  split at read
  · cases read
    have encoded : (utf8 (String.fromUTF8 ⟨bytes.toArray⟩ ‹_›)).toByteArray = ⟨bytes.toArray⟩ :=
      String.utf8Encode_toList
    have data := congrArg (fun encoded : ByteArray => encoded.data.toList) encoded
    simpa only [List.data_toByteArray] using data
  · cases read

/-! ### Single characters -/

theorem forall_byte {P : UInt8 → Prop} (all : ∀ n < 256, P (UInt8.ofNat n)) (b : UInt8) : P b := by
  have one := all b.toNat b.toNat_lt
  rwa [UInt8.ofNat_toNat] at one

theorem char?_eq_some_iff {n : Nat} {c : Char} : char? n = some c ↔ c.toNat = n := by
  by_cases valid : n.isValidChar
  · have number : (Char.ofNatAux n valid).toNat = n := rfl
    rw [char?, dif_pos valid, Option.some_inj]
    constructor
    · rintro rfl
      exact number
    · rintro rfl
      exact Char.toNat_inj.1 number
  · rw [char?, dif_neg valid]
    constructor
    · rintro ⟨⟩
    · rintro rfl
      exact absurd c.valid valid

theorem of_ascii {P : Char → Prop} (all : ∀ n < 128, P (Char.ofNat n)) {c : Char}
    (ascii : c.toNat < 128) : P c := by
  rw [← Char.ofNat_toNat c]
  exact all c.toNat ascii

theorem encode_of_ascii {c : Char} (ascii : c.toNat < 128) :
    String.utf8EncodeChar c = [c.toUInt8] := by
  apply String.utf8EncodeChar_eq_singleton
  rw [Char.utf8Size_eq_one_iff]
  exact UInt32.le_iff_toNat_le.2 (Nat.le_of_lt_succ ascii)

theorem ofUInt8_toUInt8 {c : Char} (ascii : c.toNat < 128) : Char.ofUInt8 c.toUInt8 = c := by
  have byte : c.toUInt8.toNat = c.toNat := by
    have wraps : c.toUInt8.toNat = c.toNat % 256 := rfl
    omega
  exact Char.toNat_inj.1 byte

/-- A digit of any base is ASCII. -/
theorem ascii_of_digit? {base d : Nat} {c : Char} (digit : digit? base c = some d) :
    c.toNat < 128 := by
  have letters : 'F'.toNat < 128 ∧ 'f'.toNat < 128 ∧ '9'.toNat < 128 := by decide
  unfold digit? at digit
  grind

/-- An ASCII text has one byte for each character, and is read off its bytes. -/
theorem utf8_of_ascii {text : String} (ascii : ∀ c ∈ text.toList, c.toNat < 128) :
    utf8 text = text.toList.map Char.toUInt8 ∧ (utf8 text).map Char.ofUInt8 = text.toList := by
  have bytes : utf8 text = text.toList.map Char.toUInt8 := by
    rw [utf8, ← List.flatMap_pure_eq_map]
    exact List.flatMap_congr fun c member => encode_of_ascii (ascii c member)
  refine ⟨bytes, ?_⟩
  rw [bytes, List.map_map]
  exact (List.map_congr_left fun c member => ofUInt8_toUInt8 (ascii c member)).trans
    (List.map_id _)

theorem eq_of_toUInt8_eq {c d : Char} (hc : c.toNat < 128) (hd : d.toNat < 128)
    (h : c.toUInt8 = d.toUInt8) : c = d := by
  have same : c.toNat % 256 = d.toNat % 256 := congrArg UInt8.toNat h
  rw [Nat.mod_eq_of_lt (by omega), Nat.mod_eq_of_lt (by omega)] at same
  exact Char.ext (UInt32.toNat_inj.1 same)

theorem le_of_mem_encode {c : Char} (wide : 128 ≤ c.toNat) {b : UInt8}
    (member : b ∈ String.utf8EncodeChar c) : 0x80 ≤ b := by
  have notOne : ¬c.val.toNat ≤ 0x7F := Nat.not_le.2 wide
  rw [UInt8.le_iff_toNat_le]
  unfold String.utf8EncodeChar at member
  simp only [notOne, if_false] at member
  split at member
  · simp only [List.mem_cons, List.not_mem_nil, or_false] at member
    rcases member with rfl | rfl <;> simp <;> omega
  · split at member
    · simp only [List.mem_cons, List.not_mem_nil, or_false] at member
      rcases member with rfl | rfl | rfl <;> simp <;> omega
    · simp only [List.mem_cons, List.not_mem_nil, or_false] at member
      rcases member with rfl | rfl | rfl | rfl <;> simp <;> omega

/-- What holds of all bytes beyond ASCII holds of all bytes of a text as soon as it holds of its
ASCII characters. -/
theorem forall_mem_flatMap_encode {p : UInt8 → Prop} (wide : ∀ b, 0x80 ≤ b → p b)
    {cs : List Char} (ascii : ∀ c ∈ cs, c.toNat < 128 → p c.toUInt8) :
    ∀ b ∈ cs.flatMap String.utf8EncodeChar, p b := by
  intro b member
  obtain ⟨c, inside, here⟩ := List.mem_flatMap.1 member
  by_cases small : c.toNat < 128
  · rw [encode_of_ascii small, List.mem_singleton] at here
    exact here ▸ ascii c inside small
  · exact wide b (le_of_mem_encode (Nat.le_of_not_lt small) here)

theorem forall_mem_utf8 {p : UInt8 → Prop} (wide : ∀ b, 0x80 ≤ b → p b) {text : String}
    (ascii : ∀ c ∈ text.toList, c.toNat < 128 → p c.toUInt8) : ∀ b ∈ utf8 text, p b :=
  forall_mem_flatMap_encode wide ascii

theorem utf8_ne_nil {text : String} (h : text ≠ "") : utf8 text ≠ [] := by
  intro none
  apply h
  rw [← String.toList_inj]
  cases chars : text.toList with
  | nil => rfl
  | cons c rest =>
    rw [utf8, chars, List.flatMap_cons, List.append_eq_nil_iff] at none
    exact absurd none.1 String.utf8EncodeChar_ne_nil

end ScoreScript
