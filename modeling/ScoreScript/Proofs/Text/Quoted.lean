import Mathlib.Data.List.Basic
import ScoreScript.Text.Quoted

/-!
Quoted texts can be told from what stands around them. A reader of a message knows after each
character whether it is inside quotes, and what is quoted can be read back.
-/

namespace ScoreScript

/-! ### Digits -/

theorem mem_toDigits {base n : Nat} (large : 1 < base) {c : Char}
    (member : c ∈ Nat.toDigits base n) : ∃ d < base, c = Nat.digitChar d := by
  induction n using Nat.strongRecOn with
  | ind n ih =>
    rw [Nat.toDigits_eq_if large] at member
    split at member
    · rename_i small
      exact ⟨n, small, List.mem_singleton.1 member⟩
    · rename_i notSmall
      have less : n / base < n := Nat.div_lt_self (by omega) large
      rcases List.mem_append.1 member with front | last
      · exact ih (n / base) less front
      · exact ⟨n % base, Nat.mod_lt n (by omega), List.mem_singleton.1 last⟩

theorem digitChar_inj : ∀ d < 16, ∀ e < 16, Nat.digitChar d = Nat.digitChar e → d = e := by
  decide

theorem toDigits_inj {base n m : Nat} (large : 1 < base) (small : base ≤ 16)
    (same : Nat.toDigits base n = Nat.toDigits base m) : n = m := by
  induction n using Nat.strongRecOn generalizing m with
  | ind n ih =>
    rw [Nat.toDigits_eq_if large, Nat.toDigits_eq_if (n := m) large] at same
    split at same <;> split at same
    · rw [List.cons.injEq] at same
      exact digitChar_inj n (by omega) m (by omega) same.1
    · have front := congrArg List.length same
      have := @Nat.length_toDigits_pos base (m / base)
      rw [List.length_append, List.length_singleton, List.length_singleton] at front
      omega
    · have front := congrArg List.length same
      have := @Nat.length_toDigits_pos base (n / base)
      rw [List.length_append, List.length_singleton, List.length_singleton] at front
      omega
    · obtain ⟨front, last⟩ := List.append_inj' same rfl
      rw [List.cons.injEq] at last
      have quotient : n / base = m / base :=
        ih (n / base) (Nat.div_lt_self (by omega) large) front
      have below (k : Nat) : k % base < 16 :=
        Nat.lt_of_lt_of_le (Nat.mod_lt k (by omega)) small
      have remainder : n % base = m % base :=
        digitChar_inj _ (below n) _ (below m) last.1
      rw [← Nat.div_add_mod n base, ← Nat.div_add_mod m base, quotient, remainder]

/-! ### Quoted characters -/

/-- What stands before a character that it does not contain can be told. -/
theorem append_cons_inj {c : Char} {a a' b b' : List Char} (ha : c ∉ a) (ha' : c ∉ a')
    (same : a ++ c :: b = a' ++ c :: b') : a = a' ∧ b = b' := by
  induction a generalizing a' with
  | nil =>
    cases a' with
    | nil => exact ⟨rfl, (List.cons.inj same).2⟩
    | cons x a' => exact absurd (List.cons.inj same).1 (fun h => ha' (h ▸ List.mem_cons_self))
  | cons x a ih =>
    cases a' with
    | nil => exact absurd (List.cons.inj same).1 (fun h => ha (h ▸ List.mem_cons_self))
    | cons y a' =>
      obtain ⟨rfl, rest⟩ := List.cons.inj same
      obtain ⟨rfl, rfl⟩ := ih (fun h => ha (List.mem_cons_of_mem _ h))
        (fun h => ha' (List.mem_cons_of_mem _ h)) rest
      exact ⟨rfl, rfl⟩

/-- The character that a short escape stands for. -/
def unescape : Char → Char
  | '0' => '\x00'
  | 't' => '\t'
  | 'n' => '\n'
  | 'r' => '\r'
  | c => c

theorem quotedChar_cases (c : Char) :
    (quotedChar '"' c = [c] ∧ c ≠ '\\' ∧ c ≠ '"') ∨
      (∃ e, quotedChar '"' c = ['\\', e] ∧ e ≠ 'u' ∧ c = unescape e) ∨
      quotedChar '"' c = ['\\', 'u', '\x7b'] ++ hexDigits c.toNat ++ ['\x7d'] := by
  unfold quotedChar
  split
  · exact .inr (.inl ⟨'0', rfl, by decide, rfl⟩)
  · exact .inr (.inl ⟨'t', rfl, by decide, rfl⟩)
  · exact .inr (.inl ⟨'n', rfl, by decide, rfl⟩)
  · exact .inr (.inl ⟨'r', rfl, by decide, rfl⟩)
  · exact .inr (.inl ⟨'\\', rfl, by decide, rfl⟩)
  · rename_i noBackslash
    split
    · rename_i quote
      subst quote
      exact .inr (.inl ⟨'"', rfl, by decide, rfl⟩)
    · rename_i noQuote
      split
      · exact .inl ⟨rfl, noBackslash, noQuote⟩
      · exact .inr (.inr rfl)

theorem not_mem_hexDigits (n : Nat) :
    '\x7d' ∉ hexDigits n ∧ '"' ∉ hexDigits n ∧ '\\' ∉ hexDigits n := by
  have none : ∀ d < 16, '\x7d' ≠ Nat.digitChar d ∧ '"' ≠ Nat.digitChar d ∧
      '\\' ≠ Nat.digitChar d := by
    decide
  refine ⟨fun member => ?_, fun member => ?_, fun member => ?_⟩ <;>
    obtain ⟨d, small, same⟩ := mem_toDigits (by decide) member
  · exact (none d small).1 same
  · exact (none d small).2.1 same
  · exact (none d small).2.2 same

/-- The first character of a quoted text can be read back, whatever comes after it. -/
theorem quotedChar_append_inj {c d : Char} {rest rest' : List Char}
    (same : quotedChar '"' c ++ rest = quotedChar '"' d ++ rest') : c = d ∧ rest = rest' := by
  rcases quotedChar_cases c with ⟨hc, noBackslash, -⟩ | ⟨e, hc, notHex, hc'⟩ | hc <;>
    rcases quotedChar_cases d with ⟨hd, noBackslash', -⟩ | ⟨e', hd, notHex', hd'⟩ | hd <;>
    rw [hc, hd] at same
  · exact List.cons.inj same
  · exact absurd (List.cons.inj same).1 noBackslash
  · exact absurd (List.cons.inj same).1 noBackslash
  · exact absurd (List.cons.inj same).1.symm noBackslash'
  · obtain ⟨-, same⟩ := List.cons.inj same
    obtain ⟨same, rest⟩ := List.cons.inj same
    exact ⟨by rw [hc', hd', same], rest⟩
  · exact absurd (List.cons.inj (List.cons.inj same).2).1 notHex
  · exact absurd (List.cons.inj same).1.symm noBackslash'
  · exact absurd (List.cons.inj (List.cons.inj same).2).1.symm notHex'
  · simp only [List.append_assoc, List.cons_append, List.nil_append, List.cons.injEq,
      true_and] at same
    obtain ⟨digits, rest⟩ := append_cons_inj (not_mem_hexDigits _).1 (not_mem_hexDigits _).1 same
    exact ⟨Char.toNat_inj.1 (toDigits_inj (by decide) (by decide) digits), rest⟩

theorem quotedChar_ne_nil (c : Char) : quotedChar '"' c ≠ [] := by
  rcases quotedChar_cases c with ⟨h, -⟩ | ⟨e, h, -⟩ | h <;> rw [h]
  · exact List.cons_ne_nil _ _
  · exact List.cons_ne_nil _ _
  · exact List.cons_ne_nil _ _

theorem quotedChars_inj {xs ys : List Char}
    (same : xs.flatMap (quotedChar '"') = ys.flatMap (quotedChar '"')) : xs = ys := by
  induction xs generalizing ys with
  | nil =>
    cases ys with
    | nil => rfl
    | cons d ys =>
      rw [List.flatMap_nil, List.flatMap_cons] at same
      exact absurd (List.append_eq_nil_iff.1 same.symm).1 (quotedChar_ne_nil d)
  | cons c xs ih =>
    cases ys with
    | nil =>
      rw [List.flatMap_nil, List.flatMap_cons] at same
      exact absurd (List.append_eq_nil_iff.1 same).1 (quotedChar_ne_nil c)
    | cons d ys =>
      rw [List.flatMap_cons, List.flatMap_cons] at same
      obtain ⟨rfl, rest⟩ := quotedChar_append_inj same
      rw [ih rest]

theorem toList_quoted (text : String) :
    (quoted text).toList = '"' :: (text.toList.flatMap (quotedChar '"') ++ ['"']) := by
  rw [quoted, String.toList_ofList]
  rfl

theorem quoted_inj {a b : String} (same : quoted a = quoted b) : a = b := by
  rw [← String.toList_inj, toList_quoted, toList_quoted, List.cons.injEq,
    List.append_cancel_right_eq] at same
  exact String.toList_inj.1 (quotedChars_inj same.2)

/-! ### Inside and outside of quotes -/

/-- Where a reader of a message is: outside of quotes, inside, or inside behind a backslash. -/
inductive Quoting where
  | outside
  | inside
  | escaped
  deriving DecidableEq

namespace Quoting

/-- Read a character. Outside of quotes there is no backslash, and no `h`, by which the word
`has` is recognized. -/
def step : Quoting → Char → Option Quoting
  | outside, c => if c = '"' then some inside else if c = '\\' ∨ c = 'h' then none else some outside
  | inside, c => if c = '"' then some outside else if c = '\\' then some escaped else some inside
  | escaped, _ => some inside

def read (q : Quoting) (text : List Char) : Option Quoting :=
  text.foldlM step q

theorem read_cons (q : Quoting) (c : Char) (text : List Char) :
    q.read (c :: text) = (q.step c).bind (·.read text) :=
  rfl

theorem read_append (q : Quoting) (first second : List Char) :
    q.read (first ++ second) = (q.read first).bind (·.read second) :=
  List.foldlM_append

/-- No text ends outside of quotes both from outside and from inside. -/
theorem read_inside_ne {text : List Char} (fromOutside : outside.read text = some outside) :
    inside.read text ≠ some outside := by
  induction text with
  | nil => exact fun fromInside => nomatch fromInside
  | cons c text ih =>
    intro fromInside
    simp only [read_cons, step] at fromOutside fromInside
    by_cases quote : c = '"'
    · rw [if_pos quote] at fromOutside fromInside
      exact ih fromInside fromOutside
    · rw [if_neg quote] at fromOutside fromInside
      by_cases stop : c = '\\' ∨ c = 'h'
      · rw [if_pos stop] at fromOutside
        cases fromOutside
      · rw [if_neg stop] at fromOutside
        rw [if_neg fun backslash => stop (.inl backslash)] at fromInside
        exact ih fromOutside fromInside

/-- Neither quotes nor escapes. -/
def Quiet (text : List Char) : Prop :=
  ∀ c ∈ text, c ≠ '"' ∧ c ≠ '\\'

theorem read_inside_of_quiet {text : List Char} (quiet : Quiet text) :
    inside.read text = some inside := by
  induction text with
  | nil => rfl
  | cons c text ih =>
    obtain ⟨⟨noQuote, noBackslash⟩, quiet⟩ := List.forall_mem_cons.1 quiet
    rw [read_cons, step, if_neg noQuote, if_neg noBackslash]
    exact ih quiet

theorem read_outside_of_quiet {text : List Char} (quiet : Quiet text) (word : 'h' ∉ text) :
    outside.read text = some outside := by
  induction text with
  | nil => rfl
  | cons c text ih =>
    obtain ⟨⟨noQuote, noBackslash⟩, quiet⟩ := List.forall_mem_cons.1 quiet
    rw [List.mem_cons, not_or] at word
    rw [read_cons, step, if_neg noQuote, if_neg]
    · exact ih quiet word.2
    · exact fun stop => stop.elim noBackslash (Ne.symm word.1)

theorem read_quotedChar (c : Char) : inside.read (quotedChar '"' c) = some inside := by
  rcases quotedChar_cases c with ⟨h, noBackslash, noQuote⟩ | ⟨e, h, -⟩ | h <;> rw [h]
  · exact read_inside_of_quiet fun d member => by
      rw [List.mem_singleton.1 member]
      exact ⟨noQuote, noBackslash⟩
  · rfl
  · -- behind the `u` there is nothing special
    have quiet : Quiet (['\x7b'] ++ hexDigits c.toNat ++ ['\x7d']) := by
      intro d member
      obtain ⟨-, noQuote, noBackslash⟩ := not_mem_hexDigits c.toNat
      simp only [List.cons_append, List.nil_append, List.mem_cons, List.mem_append,
        List.not_mem_nil, or_false] at member
      rcases member with rfl | digit | rfl
      · decide
      · exact ⟨fun h => noQuote (h ▸ digit), fun h => noBackslash (h ▸ digit)⟩
      · decide
    change inside.read (['\x7b'] ++ hexDigits c.toNat ++ ['\x7d']) = some inside
    exact read_inside_of_quiet quiet

theorem read_quotedChars (text : List Char) :
    inside.read (text.flatMap (quotedChar '"')) = some inside := by
  induction text with
  | nil => rfl
  | cons c text ih =>
    rw [List.flatMap_cons, read_append, read_quotedChar]
    exact ih

theorem read_quoted (text : String) : outside.read (quoted text).toList = some outside := by
  rw [toList_quoted, read_cons, show outside.step '"' = some inside from rfl, Option.bind_some,
    read_append, read_quotedChars]
  rfl

end Quoting

end ScoreScript
