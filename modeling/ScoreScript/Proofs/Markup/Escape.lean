import Mathlib.Data.List.Basic
import ScoreScript.Markup.Writer
import ScoreScript.Markup.Reader
import ScoreScript.Proofs.Text.Utf8

/-!
Elements as trees, and the shape of what is written for them. The written form of an element is its
tags around its text and its children, and each child stands on a line of its own: a gap of white
space comes before it, and one more before the closing tag (`toXml_eq`).
-/

namespace ScoreScript.Element

/-! ### The tree of an element -/

mutual

/-- What passes from the children to the element holds of all elements. -/
theorem induction {P : Element → Prop} (step : ∀ e : Element, (∀ c ∈ e.children, P c) → P e) :
    ∀ e, P e
  | ⟨tag, attributes, children, text, checked, settled⟩ =>
    step ⟨tag, attributes, children, text, checked, settled⟩ (inductionAll step children)

theorem inductionAll {P : Element → Prop}
    (step : ∀ e : Element, (∀ c ∈ e.children, P c) → P e) :
    ∀ children : List Element, ∀ c ∈ children, P c
  | [] => fun _ member => nomatch member
  | first :: rest => List.forall_mem_cons.2 ⟨induction step first, inductionAll step rest⟩

end

mutual

/-- How many elements lie inside each other, the element itself included. -/
def depth : Element → Nat
  | ⟨_, _, children, _, _, _⟩ => depths children + 1

def depths : List Element → Nat
  | [] => 0
  | e :: rest => max e.depth (depths rest)

end

/-- The element `n` is `e` or lies somewhere inside it. -/
inductive Occurs (n : Element) : Element → Prop where
  | self : Occurs n n
  | child {c e : Element} (member : c ∈ e.children) (below : Occurs n c) : Occurs n e

/-- A property that the element has, and every element inside it. -/
def Everywhere (P : Element → Prop) (e : Element) : Prop :=
  ∀ n, Occurs n e → P n

mutual

/-- The tags, attributes and children, without texts and without how far they were validated. -/
def bare : Element → Element
  | ⟨tag, attributes, children, _, _, _⟩ => { tag, attributes, children := bareAll children }

def bareAll : List Element → List Element
  | [] => []
  | e :: rest => e.bare :: bareAll rest

end

theorem depth_eq (e : Element) : e.depth = depths e.children + 1 := by
  cases e
  rw [depth]

theorem everywhere_iff {P : Element → Prop} {e : Element} :
    e.Everywhere P ↔ P e ∧ ∀ c ∈ e.children, c.Everywhere P := by
  constructor
  · intro all
    exact ⟨all e .self, fun c member n below => all n (.child member below)⟩
  · rintro ⟨here, inside⟩ n occurs
    cases occurs with
    | self => exact here
    | child member below => exact inside _ member n below

theorem bareAll_eq_map (children : List Element) : bareAll children = children.map bare := by
  induction children with
  | nil => rfl
  | cons e rest ih => rw [bareAll, ih, List.map_cons]

theorem bare_eq (e : Element) :
    e.bare = { tag := e.tag, attributes := e.attributes, children := e.children.map bare } := by
  cases e
  rw [bare, bareAll_eq_map]

/-! ### The written form -/

/-- The white space before a tag that begins a line. -/
def gap (depth : Nat) : String :=
  "\n" ++ indent depth

/-- The white space before the closing tag, which begins a line if there are children. -/
def lastGap (depth : Nat) (children : List Element) : String :=
  if children.isEmpty then "" else gap depth

/-- A tag up to the sign that ends it. -/
def opening (tag : String) (attributes : Assoc String) : String :=
  "<" ++ tag ++ attributeText attributes

def closing (tag : String) : String :=
  "</" ++ tag ++ ">"

mutual

/-- The written form of an element that stands at a depth, from its first sign to its last. -/
def markup (depth : Nat) : Element → String
  | ⟨tag, attributes, children, text, _, _⟩ =>
    let content := text.getD ""
    if children.isEmpty && content.isEmpty then opening tag attributes ++ " />"
    else
      opening tag attributes ++ ">" ++ escape false content ++ markups (depth + 1) children ++
        lastGap depth children ++ closing tag

def markups (depth : Nat) : List Element → String
  | [] => ""
  | e :: rest => gap depth ++ markup depth e ++ markups depth rest

end

mutual

theorem join_toLines (depth : Nat) :
    (e : Element) → String.join (toLines depth e) = indent depth ++ markup depth e ++ "\n"
  | ⟨tag, attributes, [], text, _, _⟩ => by
    match text with
    | none | some "" => simp [toLines, markup, opening, String.append_assoc]
    | some text =>
      by_cases none : text = ""
      · subst none
        simp [toLines, markup, opening, String.append_assoc]
      · simp [toLines, markup, opening, closing, lastGap, markups, none, String.append_assoc]
  | ⟨tag, attributes, first :: rest, text, _, _⟩ => by
    -- the line break after the text is the one before the first child
    have inside (tail : String) :
        "\n" ++ (String.join (childLines (depth + 1) (first :: rest)) ++ tail) =
          markups (depth + 1) (first :: rest) ++ ("\n" ++ tail) := by
      rw [← String.append_assoc, join_childLines, String.append_assoc]
    simp [toLines, markup, opening, closing, lastGap, gap, String.append_assoc, inside]

theorem join_childLines (depth : Nat) :
    (children : List Element) →
      "\n" ++ String.join (childLines depth children) = markups depth children ++ "\n"
  | [] => by simp [childLines, markups]
  | e :: rest => by
    have first := join_toLines depth e
    have later := join_childLines depth rest
    simp only [childLines, String.join_append, markups, gap, first, String.append_assoc, later]

end

theorem toXml_eq (e : Element) : e.toXml = markup 0 e ++ "\n" := by
  rw [toXml, join_toLines]
  rfl

end ScoreScript.Element

/-!
Escaped texts. Decoding the references of an escaped text gives the text back, and no sign that
would end the text, or the attribute value, occurs in it.
-/

namespace ScoreScript

/-- The names of the references that are written. -/
def referenceNames : List (List Char) :=
  ["amp".toList, "lt".toList, "gt".toList, "quot".toList, "#10".toList]

theorem referenceNames_plain : ∀ name ∈ referenceNames, ';' ∉ name := by
  decide

/-- The characters that references are written with. -/
def referenceSigns : List Char :=
  "&;ampltgquo#10".toList

theorem referenceSigns_cover :
    ∀ name ∈ referenceNames, '&' :: (name ++ [';']) ⊆ referenceSigns := by
  decide

/-- A character is left as it is or becomes one of five references. -/
theorem escapeChar_cases (inAttribute : Bool) (c : Char) :
    (escapeChar inAttribute c = [c] ∧ c ≠ '&' ∧ c ≠ '<' ∧ (inAttribute = true → c ≠ '"')) ∨
      ∃ name ∈ referenceNames,
        escapeChar inAttribute c = '&' :: (name ++ [';']) ∧ Entity.char name = some c := by
  unfold escapeChar
  split
  · exact .inr ⟨"amp".toList, by decide, rfl, rfl⟩
  · exact .inr ⟨"lt".toList, by decide, rfl, rfl⟩
  · exact .inr ⟨"gt".toList, by decide, rfl, rfl⟩
  · cases inAttribute with
    | true => exact .inr ⟨"quot".toList, by decide, rfl, rfl⟩
    | false => exact .inl ⟨rfl, by decide, by decide, nofun⟩
  · cases inAttribute with
    | true => exact .inr ⟨"#10".toList, by decide, rfl, by decide⟩
    | false => exact .inl ⟨rfl, by decide, by decide, nofun⟩
  · rename_i noAmpersand noLess _ noQuote _
    exact .inl ⟨rfl, noAmpersand, noLess, fun _ => noQuote⟩

namespace Entity

theorem decodeFrom_cons {c : Char} (plain : c ≠ '&') (before rest : List Char) :
    decodeFrom before (c :: rest) = decodeFrom (c :: before) rest := by
  rw [decodeFrom]
  exact plain

theorem decodeFrom_reference {name : List Char} {c : Char} (noEnd : ';' ∉ name)
    (named : char name = some c) (before rest : List Char) :
    decodeFrom before ('&' :: (name ++ ';' :: rest)) = decodeFrom (c :: before) rest := by
  have taken : (name ++ ';' :: rest).takeWhile (· ≠ ';') = name := by
    rw [List.takeWhile_append_of_pos]
    · simp
    · intro d member
      simpa using fun same : d = ';' => noEnd (same ▸ member)
  have passed : (name ++ ';' :: rest).drop (name.length + 1) = rest := by
    rw [List.append_cons]
    exact List.drop_left' (by simp)
  rw [decodeFrom]
  simp only [taken, List.drop_left, named, passed]

theorem decodeFrom_escape (inAttribute : Bool) (before text : List Char) :
    decodeFrom before (text.flatMap (escapeChar inAttribute)) = .ok (before.reverse ++ text) := by
  induction text generalizing before with
  | nil => simp [decodeFrom]
  | cons c rest ih =>
    rw [List.flatMap_cons]
    rcases escapeChar_cases inAttribute c with ⟨same, plain, -, -⟩ | ⟨name, known, escaped, named⟩
    · rw [same, List.singleton_append, decodeFrom_cons plain, ih]
      simp
    · rw [escaped, List.cons_append, List.append_assoc, List.singleton_append,
        decodeFrom_reference (referenceNames_plain name known) named, ih]
      simp

theorem decode_escape (inAttribute : Bool) (text : String) :
    decode (escape inAttribute text) = .ok text := by
  rw [decode, escape, String.toList_ofList, decodeFrom_escape]
  simp [Except.map]

end Entity

/-- The bytes of an escaped text satisfy what all bytes beyond ASCII satisfy, the signs of the
references, and every character that is not escaped. -/
theorem forall_mem_utf8_escape {p : UInt8 → Prop} {inAttribute : Bool}
    (wide : ∀ b, 0x80 ≤ b → p b) (references : ∀ c ∈ referenceSigns, p c.toUInt8)
    (plain : ∀ c : Char, c.toNat < 128 → c ≠ '<' → (inAttribute = true → c ≠ '"') →
      p c.toUInt8) (text : String) :
    ∀ b ∈ utf8 (escape inAttribute text), p b := by
  apply forall_mem_utf8 wide
  intro d member ascii
  rw [escape, String.toList_ofList] at member
  obtain ⟨c, -, here⟩ := List.mem_flatMap.1 member
  rcases escapeChar_cases inAttribute c with
    ⟨same, -, noLess, noQuote⟩ | ⟨name, known, escaped, -⟩
  · rw [same, List.mem_singleton] at here
    subst here
    exact plain d ascii noLess noQuote
  · rw [escaped] at here
    exact references d (referenceSigns_cover name known here)

/-- A sign that is escaped, and that no reference is written with, does not occur. -/
theorem escape_without {inAttribute : Bool} (sign : Char) (ascii : sign.toNat < 128)
    (foreign : sign ∉ referenceSigns) (escaped : sign = '<' ∨ inAttribute = true ∧ sign = '"')
    (text : String) : ∀ b ∈ utf8 (escape inAttribute text), (b != sign.toUInt8) = true := by
  have apart {c : Char} (small : c.toNat < 128) (other : c ≠ sign) :
      (c.toUInt8 != sign.toUInt8) = true :=
    bne_iff_ne.2 fun same => other (eq_of_toUInt8_eq small ascii same)
  apply forall_mem_utf8_escape
  · intro b wide
    rw [bne_iff_ne]
    rintro rfl
    have small : sign.toNat % 256 < 128 := Nat.lt_of_le_of_lt (Nat.mod_le _ _) ascii
    exact absurd (UInt8.le_iff_toNat_le.1 wide) (Nat.not_le.2 small)
  · intro c member
    have small : referenceSigns.all (·.toNat < 128) = true := by decide
    exact apart (of_decide_eq_true (List.all_eq_true.1 small c member)) fun same =>
      foreign (same ▸ member)
  · intro c small noTag noQuote
    apply apart small
    rintro rfl
    rcases escaped with tag | ⟨inside, quote⟩
    · exact noTag tag
    · exact noQuote inside quote

end ScoreScript
