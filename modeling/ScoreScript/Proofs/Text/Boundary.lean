import Mathlib.Data.List.TakeWhile
import ScoreScript.Decimal.Digits
import ScoreScript.Error
import ScoreScript.Proofs.Source.Cursor
import ScoreScript.Proofs.Text.Utf8

/-!
Where the bytes of a text may be cut. All bytes of a character but the first are of a kind of their
own (`Continues`). So a text can be cut in two before every byte of another kind, and behind every
byte below `0x80`, whatever characters there are. Main statements: `IsUtf8.cut`, `IsUtf8.behind`.

A reader that cuts a text nowhere else is left with a text, and never fails because some bytes are
none (`Spares`).
-/

namespace ScoreScript

/-- The bytes are those of a text. -/
def IsUtf8 (bytes : List UInt8) : Prop :=
  ∃ text, utf8 text = bytes

/-- A byte that stands behind the first of a character. -/
def Continues (b : UInt8) : Prop :=
  0x80 ≤ b ∧ b < 0xC0

/-- No character is under way: the first byte begins one, if there is any. -/
def StartsCharacter (bytes : List UInt8) : Prop :=
  ∀ b ∈ bytes.head?, ¬Continues b

variable {bytes first second rest : List UInt8} {b : UInt8}

/-! ### Single characters -/

/-- Six bits, marked as a further byte of a character. -/
theorem continues_ofNat {n : Nat} (least : 0x80 ≤ n) (less : n < 0xC0) :
    Continues (UInt8.ofNat n) := by
  simp only [Continues, UInt8.le_iff_toNat_le, UInt8.lt_iff_toNat_lt, UInt8.toNat_ofNat,
    UInt8.toNat_ofNat']
  omega

theorem not_continues_ofNat {n : Nat} (other : n < 0x80 ∨ 0xC0 ≤ n) (byte : n < 256) :
    ¬Continues (UInt8.ofNat n) := by
  simp only [Continues, UInt8.le_iff_toNat_le, UInt8.lt_iff_toNat_lt, UInt8.toNat_ofNat,
    UInt8.toNat_ofNat']
  omega

/-- A character is one byte that begins it and others that continue it. -/
theorem exists_encode (c : Char) :
    ∃ b more, String.utf8EncodeChar c = b :: more ∧ ¬Continues b ∧ ∀ d ∈ more, Continues d := by
  have least : c.val.toNat < 0x110000 := by
    have valid : c.val.toNat.isValidChar := c.valid
    omega
  unfold String.utf8EncodeChar
  dsimp only
  split
  · exact ⟨_, _, rfl, not_continues_ofNat (by omega) (by omega), nofun⟩
  · split
    · refine ⟨_, _, rfl, not_continues_ofNat (by omega) (by omega), ?_⟩
      simp only [List.forall_mem_cons, List.not_mem_nil, false_imp_iff, implies_true, and_true]
      exact continues_ofNat (by omega) (by omega)
    · split
      · refine ⟨_, _, rfl, not_continues_ofNat (by omega) (by omega), ?_⟩
        simp only [List.forall_mem_cons, List.not_mem_nil, false_imp_iff, implies_true, and_true]
        exact ⟨continues_ofNat (by omega) (by omega), continues_ofNat (by omega) (by omega)⟩
      · refine ⟨_, _, rfl, not_continues_ofNat (by omega) (by omega), ?_⟩
        simp only [List.forall_mem_cons, List.not_mem_nil, false_imp_iff, implies_true, and_true]
        exact ⟨continues_ofNat (by omega) (by omega), continues_ofNat (by omega) (by omega),
          continues_ofNat (by omega) (by omega)⟩

theorem not_continues_of_lt (ascii : b < 0x80) : ¬Continues b := by
  rintro ⟨wide, -⟩
  rw [UInt8.le_iff_toNat_le] at wide
  rw [UInt8.lt_iff_toNat_lt] at ascii
  omega

theorem ascii_of_ofUInt8 (ascii : (Char.ofUInt8 b).toNat < 128) : b < 0x80 :=
  UInt8.lt_iff_toNat_lt.2 ascii

/-- Whether bytes are ASCII can be evaluated. -/
theorem ascii_of_all {bytes : List UInt8} (all : bytes.all (·.toNat.blt 0x80) = true) :
    ∀ b ∈ bytes, b < 0x80 :=
  fun b member => UInt8.lt_iff_toNat_lt.2 (Nat.le_of_ble_eq_true (List.all_eq_true.1 all b member))

namespace StartsCharacter

theorem nil : StartsCharacter [] := by
  rintro b ⟨⟩

theorem of_ascii (ascii : b < 0x80) (rest : List UInt8) : StartsCharacter (b :: rest) := by
  rintro _ ⟨⟩
  exact not_continues_of_lt ascii

/-- Where nothing of a kind comes next that has all bytes beyond ASCII, no character is under
way. -/
theorem of_stops {p : UInt8 → Bool} (stop : Cursor.Stops p rest)
    (wide : ∀ b, 0x80 ≤ b → p b = true) : StartsCharacter rest := by
  rintro b here ⟨beyond, -⟩
  exact absurd (stop b here) (by simp [wide b beyond])

end StartsCharacter

/-! ### Texts -/

namespace IsUtf8

theorem of_utf8 (text : String) : IsUtf8 (utf8 text) :=
  ⟨text, rfl⟩

theorem nil : IsUtf8 [] :=
  ⟨"", rfl⟩

theorem of_chars (cs : List Char) : IsUtf8 (cs.flatMap String.utf8EncodeChar) :=
  ⟨String.ofList cs, utf8_ofList cs⟩

theorem encode (c : Char) : IsUtf8 (String.utf8EncodeChar c) := by
  have single := of_chars [c]
  rwa [List.flatMap_singleton] at single

theorem append (h : IsUtf8 first) (h' : IsUtf8 second) : IsUtf8 (first ++ second) := by
  obtain ⟨text, rfl⟩ := h
  obtain ⟨text', rfl⟩ := h'
  exact ⟨text ++ text', utf8_append text text'⟩

theorem exists_chars (h : IsUtf8 bytes) :
    ∃ cs : List Char, bytes = cs.flatMap String.utf8EncodeChar := by
  obtain ⟨text, rfl⟩ := h
  exact ⟨text.toList, rfl⟩

/-- What is a text is read as one. -/
theorem exists_read (h : IsUtf8 bytes) : ∃ text, ofUtf8? bytes = some text := by
  obtain ⟨text, rfl⟩ := h
  exact ⟨text, ofUtf8?_utf8 text⟩

/-- A text is cut in two texts wherever a character may begin. -/
theorem cut (h : IsUtf8 (first ++ second)) (starts : StartsCharacter second) :
    IsUtf8 first ∧ IsUtf8 second := by
  obtain ⟨cs, split⟩ := h.exists_chars
  induction cs generalizing first with
  | nil =>
    obtain ⟨rfl, rfl⟩ := List.append_eq_nil_iff.1 split
    exact ⟨nil, nil⟩
  | cons c cs ih =>
    rw [List.flatMap_cons] at split
    rcases List.append_eq_append_iff.1 split with ⟨more, inside, behind⟩ | ⟨more, rfl, behind⟩
    · -- The cut lies in this character or at one of its ends.
      cases more with
      | nil =>
        rw [List.append_nil] at inside
        rw [← inside, behind, List.nil_append]
        exact ⟨encode c, of_chars cs⟩
      | cons d more =>
        cases first with
        | nil => exact ⟨nil, h⟩
        | cons b first =>
          obtain ⟨b', further, encoded, -, continues⟩ := exists_encode c
          rw [encoded] at inside
          obtain ⟨-, rfl⟩ := List.cons.inj inside
          refine absurd (continues d (by simp)) (starts d ?_)
          rw [behind]
          rfl
    · obtain ⟨left, right⟩ := ih (behind ▸ of_chars cs) behind.symm
      exact ⟨(encode c).append left, right⟩

/-- Behind bytes below `0x80` there is a text. -/
theorem behind (h : IsUtf8 (bytes ++ rest)) (ascii : ∀ b ∈ bytes, b < 0x80) : IsUtf8 rest := by
  induction bytes with
  | nil => exact h
  | cons b bytes ih =>
    refine ih ?_ fun d member => ascii d (List.mem_cons_of_mem b member)
    obtain ⟨cs, split⟩ := h.exists_chars
    cases cs with
    | nil => cases split
    | cons c cs =>
      rw [List.flatMap_cons] at split
      have narrow : c.toNat < 128 := by
        refine Nat.lt_of_not_le fun wide => ?_
        obtain ⟨d, more, encoded, -⟩ := exists_encode c
        have beyond : 0x80 ≤ d := le_of_mem_encode wide (encoded ▸ List.mem_cons_self)
        rw [encoded] at split
        obtain ⟨rfl, -⟩ := List.cons.inj split
        exact absurd (ascii b List.mem_cons_self) (UInt8.not_lt.2 beyond)
      rw [encode_of_ascii narrow] at split
      have rest_eq : bytes ++ rest = cs.flatMap String.utf8EncodeChar := (List.cons.inj split).2
      exact rest_eq ▸ of_chars cs

/-- So there is behind one such byte, whatever stands before it. -/
theorem behind_byte (h : IsUtf8 (bytes ++ b :: rest)) (ascii : b < 0x80) :
    IsUtf8 bytes ∧ IsUtf8 rest := by
  obtain ⟨left, right⟩ := h.cut (.of_ascii ascii rest)
  have single : IsUtf8 ([b] ++ rest) := right
  refine ⟨left, single.behind fun d member => ?_⟩
  rwa [List.mem_singleton.1 member]

/-- Bytes below `0x80` may be replaced by a text. -/
theorem replace {before value : List UInt8} {n : Nat} (h : IsUtf8 (before ++ rest))
    (ascii : ∀ b ∈ rest.take (n + 1), b < 0x80) (text : IsUtf8 value) :
    IsUtf8 (before ++ value ++ rest.drop (n + 1)) := by
  have starts : StartsCharacter rest := by
    cases rest with
    | nil => exact .nil
    | cons b rest => exact .of_ascii (ascii b List.mem_cons_self) rest
  obtain ⟨left, right⟩ := h.cut starts
  rw [← List.take_append_drop (n + 1) rest] at right
  exact (left.append text).append (right.behind ascii)

end IsUtf8

/-! ### Cursors -/

namespace Cursor

variable {c d e : Cursor}

theorem isWhitespace_ascii {b : UInt8} (blank : isWhitespace b = true) : b < 0x80 := by
  simp only [isWhitespace, Bool.or_eq_true, beq_iff_eq] at blank
  rcases blank with ((rfl | rfl) | rfl) | rfl <;> decide

theorem isBlank_ascii {b : UInt8} (blank : isBlank b = true) : b < 0x80 := by
  simp only [isBlank, Bool.or_eq_true, beq_iff_eq] at blank
  rcases blank with (rfl | rfl) | rfl <;> decide

theorem isDigit_ascii {b : UInt8} (digit : isDigit b = true) : b < 0x80 := by
  simp only [isDigit, Bool.and_eq_true, decide_eq_true_iff] at digit
  exact UInt8.lt_of_le_of_lt digit.2 (by decide)

/-- A byte beyond ASCII is no sign. -/
theorem ne_of_le {sign : UInt8} (ascii : sign < 0x80) (wide : 0x80 ≤ b) : (b != sign) = true := by
  rw [bne_iff_ne]
  rintro rfl
  exact absurd ascii (UInt8.not_lt.2 wide)

/-- From the first cursor to the second no byte is passed but such below `0x80`. -/
def PassesAscii (c d : Cursor) : Prop :=
  ∃ bytes, (∀ b ∈ bytes, b < 0x80) ∧ c.rest = bytes ++ d.rest

namespace PassesAscii

theorem refl : c.PassesAscii c :=
  ⟨[], nofun, rfl⟩

theorem trans (h : c.PassesAscii d) (h' : d.PassesAscii e) : c.PassesAscii e := by
  obtain ⟨bytes, ascii, split⟩ := h
  obtain ⟨more, ascii', split'⟩ := h'
  refine ⟨bytes ++ more, fun b member => ?_, by rw [split, split', List.append_assoc]⟩
  exact (List.mem_append.1 member).elim (ascii b) (ascii' b)

theorem advanceBy {count : Nat} (ascii : ∀ b ∈ c.rest.take count, b < 0x80) :
    c.PassesAscii (c.advanceBy count) :=
  ⟨_, ascii, (List.take_append_drop _ _).symm⟩

theorem advance (here : c.current = some b) (ascii : b < 0x80) : c.PassesAscii c.advance := by
  obtain ⟨rest, split⟩ := List.head?_eq_some_iff.1 here
  refine advanceBy fun d member => ?_
  rw [split, List.take_succ_cons, List.take_zero, List.mem_singleton] at member
  rwa [member]

/-- Two characters that are looked at. -/
theorem of_looks {first second : Char} (here : c.look = some first)
    (next : c.lookAt 1 = some second) (ascii : first.toNat < 128 ∧ second.toNat < 128) :
    c.PassesAscii (c.advanceBy 2) := by
  obtain ⟨b, current, rfl⟩ := Option.map_eq_some_iff.1 here
  obtain ⟨rest, split⟩ := List.head?_eq_some_iff.1 current
  obtain ⟨d, behind, rfl⟩ := Option.map_eq_some_iff.1 next
  rw [peek, split, List.getElem?_cons_succ, ← List.head?_eq_getElem?] at behind
  obtain ⟨rest', rfl⟩ := List.head?_eq_some_iff.1 behind
  refine advanceBy fun e member => ?_
  rw [split, List.take_succ_cons, List.take_succ_cons, List.take_zero] at member
  simp only [List.mem_cons, List.not_mem_nil, or_false] at member
  rcases member with rfl | rfl
  · exact ascii_of_ofUInt8 ascii.1
  · exact ascii_of_ofUInt8 ascii.2

theorem skipWhile {p : UInt8 → Bool} (ascii : ∀ b, p b = true → b < 0x80) :
    c.PassesAscii (c.skipWhile p) :=
  ⟨_, fun b member => ascii b (List.mem_takeWhile_imp member), rest_skipWhile c p⟩

theorem consume? (passed : c.consume? b = some d) (ascii : b < 0x80) : c.PassesAscii d :=
  ⟨[b], fun _ member => List.mem_singleton.1 member ▸ ascii, rest_of_consume? passed⟩

theorem skipOptional (ascii : b < 0x80) : c.PassesAscii (c.skipOptional b) := by
  unfold Cursor.skipOptional
  cases passed : c.consume? b with
  | none => exact refl
  | some after => exact consume? passed ascii

theorem of_startsWith {word : String} (start : c.startsWith word = true)
    (ascii : ∀ b ∈ word.toList.map Char.toUInt8, b < 0x80) :
    c.PassesAscii (c.advanceBy word.length) :=
  ⟨_, ascii, rest_of_startsWith start⟩

end PassesAscii

end Cursor

namespace IsUtf8

open Cursor

variable {c d : Cursor}

theorem passes (h : IsUtf8 c.rest) (passes : c.PassesAscii d) : IsUtf8 d.rest := by
  obtain ⟨bytes, ascii, split⟩ := passes
  exact behind (split ▸ h) ascii

/-- Bytes of a kind that has all beyond ASCII are passed character by character. -/
theorem skipWhile (h : IsUtf8 c.rest) {p : UInt8 → Bool} (wide : ∀ b, 0x80 ≤ b → p b = true) :
    IsUtf8 (c.upTo (c.skipWhile p)) ∧ IsUtf8 (c.skipWhile p).rest := by
  rw [upTo_skipWhile]
  rw [rest_skipWhile c p] at h
  exact h.cut (.of_stops (stops_skipWhile c p) wide)

/-- Behind a sign that is next, if there is anything left, there is a text. -/
theorem advance (h : IsUtf8 c.rest) {sign : UInt8} (ascii : sign < 0x80)
    (stop : Stops (· != sign) c.rest) : IsUtf8 c.advance.rest := by
  cases here : c.current with
  | none =>
    rw [Cursor.advance, rest_advanceBy, List.head?_eq_none_iff.1 here]
    exact .nil
  | some b =>
    refine h.passes (.advance here ?_)
    have same : b = sign := by simpa using stop b here
    exact same ▸ ascii

/-- Both sides of the first occurrence of a word are texts. -/
theorem skipPast (h : IsUtf8 c.rest) {word : String} {b : UInt8} {more : List UInt8}
    (word_eq : word.toList.map Char.toUInt8 = b :: more) (ascii : ∀ d ∈ b :: more, d < 0x80)
    (passed : c.skipPast word = .ok d) :
    ∃ before, c.rest = before ++ (b :: more ++ d.rest) ∧ IsUtf8 before ∧ IsUtf8 d.rest := by
  unfold Cursor.skipPast at passed
  split at passed
  · rename_i count found
    cases passed
    rw [word_eq, distance?_eq_some_iff (List.cons_ne_nil b more)] at found
    obtain ⟨n, same, leads, -⟩ := found
    obtain rfl : count = n := by omega
    have length : word.length = (b :: more).length := by
      rw [← word_eq, List.length_map, String.length_toList]
    have behind : c.rest.drop count = b :: more ++ (c.advanceBy (count + word.length)).rest := by
      rw [rest_advanceBy, length, ← List.drop_drop]
      exact (List.prefix_iff_eq_append.1 leads).symm
    have whole : c.rest = c.rest.take count ++
        (b :: more ++ (c.advanceBy (count + word.length)).rest) := by
      rw [← behind, List.take_append_drop]
    obtain ⟨left, right⟩ := (whole ▸ h).cut (.of_ascii (ascii b List.mem_cons_self) _)
    exact ⟨_, whole, left, IsUtf8.behind right ascii⟩
  · cases passed

end IsUtf8

/-! ### Results -/

/-- The result is good, or it is a failure for another cause than this one. -/
def Spares {α : Type} (cause : Cause) (good : α → Prop) : Except Error α → Prop
  | .ok a => good a
  | .error e => e.cause ≠ cause

namespace Spares

variable {α β : Type} {cause : Cause} {good : α → Prop} {good' : β → Prop}
  {result : Except Error α}

theorem bind {next : α → Except Error β} (h : Spares cause good result)
    (h' : ∀ a, good a → Spares cause good' (next a)) : Spares cause good' (result >>= next) := by
  cases result with
  | error e => exact h
  | ok a => exact h' a h

theorem map {f : α → β} (h : Spares cause good result) (h' : ∀ a, good a → good' (f a)) :
    Spares cause good' (result.map f) := by
  cases result with
  | error e => exact h
  | ok a => exact h' a h

theorem mono {more : α → Prop} (h : Spares cause good result) (le : ∀ a, good a → more a) :
    Spares cause more result := by
  cases result with
  | error e => exact h
  | ok a => exact le a h

theorem of_ok {a : α} (h : Spares cause good result) (done : result = .ok a) : good a := by
  rwa [done] at h

theorem of_error {e : Error} (h : Spares cause good result) (failed : result = .error e) :
    e.cause ≠ cause := by
  rwa [failed] at h

end Spares

end ScoreScript
