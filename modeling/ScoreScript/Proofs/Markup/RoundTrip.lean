import ScoreScript.Proofs.Markup.Content

/-!
Documents that are written and read back. Reading gives every tag, every attribute and every child
back; it drops a text of white space, and it adds to the text of an element with children the white
space that their lines begin with (`reread`). It gives up where the elements lie too deep.
-/

namespace ScoreScript

open Element

namespace Element

/-- What is written between the start tag of an element and the tag after it. -/
def afterTag (depth : Nat) (e : Element) : String :=
  escape false (e.text.getD "") ++ (markups (depth + 1) e.children ++
    (lastGap depth e.children ++ closing e.tag))

/-- An element is written as an empty tag, or as a start tag and a block. -/
theorem utf8_markup_cases (depth : Nat) (e : Element) :
    (e.children = [] ∧ e.text.getD "" = "" ∧
      utf8 (markup depth e) = utf8 (opening e.tag e.attributes) ++ [0x20, 0x2F, 0x3E]) ∨
    utf8 (markup depth e) =
      utf8 (opening e.tag e.attributes) ++ 0x3E :: utf8 (afterTag depth e) := by
  obtain ⟨tag, attributes, children, text, checked, settled⟩ := e
  have empty : utf8 " />" = [0x20, 0x2F, 0x3E] := rfl
  have sign : utf8 ">" = [0x3E] := rfl
  rw [markup]
  split
  · rename_i none
    simp only [Bool.and_eq_true, List.isEmpty_iff, String.isEmpty_iff] at none
    exact .inl ⟨none.1, none.2, by rw [utf8_append, empty]⟩
  · right
    simp only [afterTag, utf8_append, sign, List.append_assoc, List.cons_append, List.nil_append]

end Element

theorem escape_append (inAttribute : Bool) (a b : String) :
    escape inAttribute (a ++ b) = escape inAttribute a ++ escape inAttribute b := by
  rw [escape, String.toList_append, List.flatMap_append, String.ofList_append]
  rfl

theorem escape_gap (depth : Nat) : escape false (gap depth) = gap depth := by
  have spaces : (List.replicate (2 * depth) ' ').flatMap (escapeChar false) =
      List.replicate (2 * depth) ' ' := by
    induction 2 * depth with
    | zero => rfl
    | succ n ih => rw [List.replicate_succ, List.flatMap_cons, ih]; rfl
  have indented : escape false (indent depth) = indent depth := by
    rw [escape, indent, String.toList_ofList, spaces]
  rw [gap, escape_append, indented]
  rfl

theorem escape_lastGap (depth : Nat) (children : List Element) :
    escape false (lastGap depth children) = lastGap depth children := by
  unfold lastGap
  split
  · rfl
  · exact escape_gap depth

namespace Element

/-- The white space before the children and before the closing tag. -/
def gaps (depth : Nat) (children : List Element) : String :=
  String.join (children.map fun _ => gap (depth + 1)) ++ lastGap depth children

mutual

/-- What the reader makes of an element written at a depth. -/
def reread (depth : Nat) : Element → Element
  | ⟨tag, attributes, children, text, _, _⟩ =>
    let found := text.getD "" ++ gaps depth children
    { tag, attributes, children := rereadAll (depth + 1) children
      text := if isBlankText found then none else some found }

def rereadAll (depth : Nat) : List Element → List Element
  | [] => []
  | e :: rest => e.reread depth :: rereadAll depth rest

end

end Element

namespace Markup

open Cursor

variable {rest : List UInt8} {p : Pos}

/-- An element begins with a tag that opens it. -/
theorem exists_markup {e : Element} (named : IsName e.tag) (depth : Nat) :
    ∃ b bytes, utf8 (markup depth e) = 0x3C :: b :: bytes ∧ isNameStart b = true := by
  obtain ⟨b, bytes, first, start⟩ := named.exists_cons
  rcases utf8_markup_cases depth e with ⟨-, -, bytes⟩ | bytes <;>
    rw [bytes, utf8_opening, first] <;> exact ⟨b, _, rfl, start⟩

variable (rest) in
theorem content_element {e : Element} (named : IsName e.tag) (depth : Nat) (top : OpenElement)
    (text : String) :
    content top ⟨utf8 (escape false text) ++ (utf8 (markup depth e) ++ rest), p⟩ =
      .ok ((top.addText text, false),
        ⟨utf8 (markup depth e) ++ rest, p.after (utf8 (escape false text))⟩) := by
  obtain ⟨b, bytes, split, start⟩ := exists_markup named depth
  rw [split]
  exact content_child top text start

/-- Reading a text and the element after it adds both to the innermost open element, if the
element does not lie too deep. -/
def Readable (e : Element) : Prop :=
  ∀ (depth : Nat) (top : OpenElement) (below : List OpenElement) (text : String)
    (rest : List UInt8) (p : Pos), e.depth + below.length + 1 ≤ maxDepth →
    inside top below ⟨utf8 (escape false text) ++ (utf8 (markup depth e) ++ rest), p⟩ =
      inside ((top.addText text).addChild (e.reread depth)) below
        ⟨rest, p.after (utf8 (escape false text) ++ utf8 (markup depth e))⟩

variable (rest) in
/-- The text and the children of an element, and the closing tag after some white space. -/
theorem inside_children (depth : Nat) (below : List OpenElement) {last : String}
    (blank : escape false last = last) {children : List Element} :
    ∀ (top : OpenElement) (text : String) {p : Pos}, (∀ c ∈ children, Readable c) →
      depths children + below.length + 1 ≤ maxDepth → IsName top.tag →
      inside top below ⟨utf8 (escape false text) ++ (utf8 (markups depth children) ++
          (utf8 last ++ (utf8 (closing top.tag) ++ rest))), p⟩ =
        resume
          (OpenElement.mk top.tag top.attributes
            ((rereadAll depth children).reverse ++ top.children)
            (top.text ++ (text ++ (String.join (children.map fun _ => gap depth) ++ last)))).close
          below
          ⟨rest, p.after (utf8 (escape false text) ++ (utf8 (markups depth children) ++
            (utf8 last ++ utf8 (closing top.tag))))⟩ := by
  induction children with
  | nil =>
    intro top text p _ _ named
    have read := content_close (p := p) rest named (text ++ last)
    rw [escape_append, blank, utf8_append, List.append_assoc] at read
    have none : utf8 (markups depth []) = [] := rfl
    rw [none, List.nil_append, inside_closed read]
    simp [OpenElement.addText, rereadAll]
  | cons c more ih =>
    intro top text p readable room named
    obtain ⟨first, later⟩ := List.forall_mem_cons.1 readable
    rw [depths] at room
    -- the white space before the child belongs to the text
    have bytes : utf8 (escape false text) ++ (utf8 (markups depth (c :: more)) ++
        (utf8 last ++ (utf8 (closing top.tag) ++ rest))) =
        utf8 (escape false (text ++ gap depth)) ++ (utf8 (markup depth c) ++
          (utf8 (markups depth more) ++ (utf8 last ++ (utf8 (closing top.tag) ++ rest)))) := by
      simp only [markups, escape_append, escape_gap, utf8_append, List.append_assoc]
    rw [bytes, first depth top below _ _ _ (by omega)]
    have remaining := ih ((top.addText (text ++ gap depth)).addChild (c.reread depth)) ""
      (p := p.after (utf8 (escape false (text ++ gap depth)) ++ utf8 (markup depth c)))
      later (by omega) named
    rw [show utf8 (escape false "") = [] from rfl, List.nil_append] at remaining
    refine remaining.trans ?_
    simp [OpenElement.addText, OpenElement.addChild, rereadAll, markups, escape_append, escape_gap,
      utf8_append, Pos.after_append, String.append_assoc]

variable (rest) in
/-- Behind its start tag, an element is read up to its closing tag. -/
theorem inside_afterTag {e : Element} (named : IsName e.tag) (depth : Nat)
    (below : List OpenElement) (room : e.depth + below.length ≤ maxDepth)
    (readable : ∀ c ∈ e.children, Readable c) :
    inside ⟨e.tag, e.attributes, [], ""⟩ below ⟨utf8 (afterTag depth e) ++ rest, p⟩ =
      resume (e.reread depth) below ⟨rest, p.after (utf8 (afterTag depth e))⟩ := by
  rw [depth_eq] at room
  have read := inside_children (p := p) rest (depth + 1) below (escape_lastGap depth e.children)
    ⟨e.tag, e.attributes, [], ""⟩ (e.text.getD "") readable (by omega) named
  simp only [afterTag, utf8_append, List.append_assoc]
  refine read.trans ?_
  cases e
  simp [OpenElement.close, reread, gaps]

/-- An empty tag makes the element that has neither text nor children. -/
theorem close_empty {e : Element} (noChildren : e.children = []) (noText : e.text.getD "" = "")
    (depth : Nat) : (OpenElement.mk e.tag e.attributes [] "").close = e.reread depth := by
  cases e
  simp only at noChildren noText
  subst noChildren
  simp [OpenElement.close, reread, rereadAll, gaps, lastGap, noText]

theorem readable {e : Element} (named : e.Everywhere WellNamed) : Readable e := by
  induction e using Element.induction with
  | step e ih =>
    intro depth top below text rest p room
    obtain ⟨here, inner⟩ := everywhere_iff.1 named
    have reached := content_element (p := p) rest here.tag depth top text
    have deep := depth_eq e
    rcases utf8_markup_cases depth e with ⟨noChildren, noText, bytes⟩ | bytes
    · have tag := startTag_empty (p := p.after (utf8 (escape false text))) rest here
      rw [bytes, List.append_assoc] at reached
      rw [bytes, List.append_assoc, inside_child reached (by omega) tag, if_pos rfl,
        close_empty noChildren noText depth,
        ← Pos.after_append]
    · have tag := startTag_open (p := p.after (utf8 (escape false text)))
        (utf8 (afterTag depth e) ++ rest) here
      rw [bytes, List.append_assoc, List.cons_append] at reached
      rw [bytes, List.append_assoc, List.cons_append, inside_child reached (by omega) tag,
        if_neg (by simp), inside_afterTag _ here.tag depth _ (by simp; omega)
          fun c member => ih c member (inner c member)]
      simp [resume, ← Pos.after_append]

/-! ### Elements that lie too deep -/

/-- Reading a text and the element after it fails if the element lies too deep. -/
def Refused (e : Element) : Prop :=
  ∀ (depth : Nat) (top : OpenElement) (below : List OpenElement) (text : String)
    (rest : List UInt8) (p : Pos), maxDepth < e.depth + below.length + 1 →
    ∃ place, inside top below ⟨utf8 (escape false text) ++ (utf8 (markup depth e) ++ rest), p⟩ =
      .error (.point (.limit (.depth maxDepth)) place)

/-- The first of the children that lies too deep is refused. -/
theorem inside_children_deep {depth : Nat} {below : List OpenElement} {children : List Element} :
    ∀ {top : OpenElement} (text : String) {p : Pos}, (∀ c ∈ children, Readable c ∧ Refused c) →
      maxDepth < depths children + below.length + 1 → below.length + 1 ≤ maxDepth →
      ∃ place, inside top below
          ⟨utf8 (escape false text) ++ (utf8 (markups depth children) ++ rest), p⟩ =
        .error (.point (.limit (.depth maxDepth)) place) := by
  induction children with
  | nil =>
    intro top text p _ deep room
    rw [depths] at deep
    omega
  | cons c more ih =>
    intro top text p known deep room
    obtain ⟨⟨readable, refused⟩, later⟩ := List.forall_mem_cons.1 known
    rw [depths] at deep
    have bytes : utf8 (escape false text) ++ (utf8 (markups depth (c :: more)) ++ rest) =
        utf8 (escape false (text ++ gap depth)) ++ (utf8 (markup depth c) ++
          (utf8 (markups depth more) ++ rest)) := by
      simp only [markups, escape_append, escape_gap, utf8_append, List.append_assoc]
    rw [bytes]
    by_cases here : maxDepth < c.depth + below.length + 1
    · exact refused depth top below _ _ _ here
    · rw [readable depth top below _ _ _ (by omega)]
      exact ih "" later (by omega) room

theorem inside_afterTag_deep {e : Element} (depth : Nat) {top : OpenElement}
    {below : List OpenElement} (deep : maxDepth < e.depth + below.length)
    (room : below.length + 1 ≤ maxDepth) (known : ∀ c ∈ e.children, Readable c ∧ Refused c) :
    ∃ place, inside top below ⟨utf8 (afterTag depth e) ++ rest, p⟩ =
      .error (.point (.limit (.depth maxDepth)) place) := by
  rw [depth_eq] at deep
  simp only [afterTag, utf8_append, List.append_assoc]
  exact inside_children_deep _ known (by omega) room

theorem refused {e : Element} (named : e.Everywhere WellNamed) : Refused e := by
  induction e using Element.induction with
  | step e ih =>
    intro depth top below text rest p deep
    obtain ⟨here, inner⟩ := everywhere_iff.1 named
    have reached := content_element (p := p) rest here.tag depth top text
    by_cases room : maxDepth ≤ below.length + 1
    · exact ⟨_, inside_deep reached room⟩
    · rcases utf8_markup_cases depth e with ⟨noChildren, -, -⟩ | bytes
      · rw [depth_eq, noChildren, depths] at deep
        omega
      · have tag := startTag_open (p := p.after (utf8 (escape false text)))
          (utf8 (afterTag depth e) ++ rest) here
        rw [bytes, List.append_assoc, List.cons_append] at reached
        rw [bytes, List.append_assoc, List.cons_append, inside_child reached (by omega) tag,
          if_neg (by simp)]
        exact inside_afterTag_deep depth (by simp; omega) (by simp; omega)
          fun c member => ⟨readable (inner c member), ih c member (inner c member)⟩

/-! ### Whole documents -/

theorem readElement_written {e : Element} (named : e.Everywhere WellNamed)
    (room : e.depth ≤ maxDepth) :
    readElement ⟨utf8 (markup 0 e) ++ rest, p⟩ =
      .ok (e.reread 0, ⟨rest, p.after (utf8 (markup 0 e))⟩) := by
  obtain ⟨here, inner⟩ := everywhere_iff.1 named
  rcases utf8_markup_cases 0 e with ⟨noChildren, noText, bytes⟩ | bytes
  · have tag := startTag_empty (p := p) rest here
    rw [readElement, bytes, List.append_assoc]
    simp only [List.cons_append, List.nil_append, tag, bind, Except.bind, if_true, pure,
      Except.pure, close_empty noChildren noText 0]
  · have tag := startTag_open (p := p) (utf8 (afterTag 0 e) ++ rest) here
    have read {q : Pos} := inside_afterTag (p := q) rest here.tag 0 []
      (by simpa using room) fun c member => readable (inner c member)
    rw [readElement, bytes, List.append_assoc]
    simp [tag, bind, Except.bind, read, resume, ← Pos.after_append]

variable (rest) in
theorem readElement_deep {e : Element} (named : e.Everywhere WellNamed)
    (deep : maxDepth < e.depth) :
    ∃ place, readElement ⟨utf8 (markup 0 e) ++ rest, p⟩ =
      .error (.point (.limit (.depth maxDepth)) place) := by
  obtain ⟨here, inner⟩ := everywhere_iff.1 named
  rcases utf8_markup_cases 0 e with ⟨noChildren, -, -⟩ | bytes
  · rw [depth_eq, noChildren, depths] at deep
    exact absurd deep (by decide)
  · have tag := startTag_open (p := p) (utf8 (afterTag 0 e) ++ rest) here
    rw [readElement, bytes, List.append_assoc]
    simp only [List.cons_append, tag, bind, Except.bind, Bool.false_eq_true, if_false]
    exact inside_afterTag_deep 0 deep (by decide)
      fun c member => ⟨readable (inner c member), refused (inner c member)⟩

/-- Reading gives back what was written, but for the texts. -/
theorem readText_toXml {e : Element} (named : e.Everywhere WellNamed)
    (room : e.depth ≤ maxDepth) : readText e.toXml = .ok (e.reread 0) := by
  obtain ⟨b, bytes, first, start⟩ := exists_markup (named e .self).tag 0
  have prolog := skipProlog_element (p := .start) (bytes ++ [0x0A]) start
  rw [← List.cons_append, ← List.cons_append, ← first] at prolog
  have last {q : Pos} : skipMisc ⟨[0x0A], q⟩ = .ok ⟨[], q.after [0x0A]⟩ := by
    have passed : (⟨[0x0A], q⟩ : Cursor).skipWhitespace = ⟨[], q.after [0x0A]⟩ :=
      skipWhile_append [0x0A] (List.forall_mem_singleton.2 rfl) (nofun : Cursor.Stops _ [])
    rw [skipMisc_none (by rw [passed]; rfl), passed]
  have line : utf8 "\n" = [0x0A] := rfl
  rw [readText, toXml_eq, utf8_append, line, read, Cursor.ofBytes]
  simp [prolog, readElement_written named room, last, bind, Except.bind, Cursor.isEnd, pure,
    Except.pure]

theorem readText_toXml_deep {e : Element} (named : e.Everywhere WellNamed)
    (deep : maxDepth < e.depth) :
    ∃ place, readText e.toXml = .error (.point (.limit (.depth maxDepth)) place) := by
  obtain ⟨b, bytes, first, start⟩ := exists_markup (named e .self).tag 0
  have prolog := skipProlog_element (p := .start) (bytes ++ [0x0A]) start
  rw [← List.cons_append, ← List.cons_append, ← first] at prolog
  obtain ⟨place, stopped⟩ := readElement_deep (p := .start) [0x0A] named deep
  have line : utf8 "\n" = [0x0A] := rfl
  refine ⟨place, ?_⟩
  rw [readText, toXml_eq, utf8_append, line, read, Cursor.ofBytes]
  simp only [prolog, stopped, bind, Except.bind]

end Markup

/-!
What a document keeps when it is written and read back: its tags, attributes and children always,
its texts as long as each of them stands alone and is not blank.
-/

/-! ### White space -/

theorem isBlankText_append (a b : String) :
    isBlankText (a ++ b) = (isBlankText a && isBlankText b) := by
  rw [isBlankText, String.toList_append, List.all_append]
  rfl

theorem isBlankText_join {parts : List String} (all : ∀ part ∈ parts, isBlankText part = true) :
    isBlankText (String.join parts) = true := by
  induction parts with
  | nil => rfl
  | cons first rest ih =>
    obtain ⟨here, later⟩ := List.forall_mem_cons.1 all
    rw [String.join_cons, isBlankText_append, here, ih later]
    rfl

namespace Element

theorem isBlankText_gap (depth : Nat) : isBlankText (gap depth) = true := by
  have line : isBlankText "\n" = true := by decide
  rw [gap, isBlankText_append, line, indent, isBlankText, String.toList_ofList]
  simp [isSpace]

theorem isBlankText_gaps (depth : Nat) (children : List Element) :
    isBlankText (gaps depth children) = true := by
  have last : isBlankText (lastGap depth children) = true := by
    unfold lastGap
    split
    · rfl
    · exact isBlankText_gap depth
  have before : isBlankText (String.join (children.map fun _ => gap (depth + 1))) = true :=
    isBlankText_join (by simp [isBlankText_gap])
  rw [gaps, isBlankText_append, before, last]
  rfl

theorem gaps_eq_empty_iff {depth : Nat} {children : List Element} :
    gaps depth children = "" ↔ children = [] := by
  cases children with
  | nil => simp [gaps, lastGap]
  | cons c rest => simp [gaps, gap]

/-! ### What is the same -/

theorem get?_of_mem {name value : String} :
    ∀ {entries : Assoc String}, (entries.map (·.1)).Nodup → (name, value) ∈ entries →
      entries.get? name = some value
  | [], _, member => nomatch member
  | (first, held) :: rest, distinct, member => by
    rw [List.map_cons, List.nodup_cons] at distinct
    rw [Assoc.get?, List.lookup_cons]
    rcases List.mem_cons.1 member with same | later
    · cases same
      simp
    · have apart : name ≠ first := by
        rintro rfl
        exact distinct.1 (List.mem_map_of_mem (f := (·.1)) later)
      rw [beq_eq_false_iff_ne.2 apart]
      exact get?_of_mem distinct.2 later

theorem sameAttributes_self {attributes : Assoc String}
    (distinct : (attributes.map (·.1)).Nodup) : sameAttributes attributes attributes = true := by
  rw [sameAttributes, beq_self_eq_true, Bool.true_and, List.all_eq_true]
  rintro ⟨name, value⟩ member
  exact beq_iff_eq.2 (get?_of_mem distinct member)

theorem sameAll_map_iff {f : Element → Element} {children : List Element} :
    sameAll (children.map f) children = true ↔ ∀ c ∈ children, (f c).same c = true := by
  induction children with
  | nil => simp [sameAll]
  | cons c rest ih => rw [List.map_cons, sameAll, Bool.and_eq_true, ih, List.forall_mem_cons]

/-- A text that reading gives back: it stands alone and is not blank. -/
def KeepsText (e : Element) : Prop :=
  ∀ text, e.text = some text → e.children = [] ∧ isBlankText text = false

theorem rereadAll_eq_map (depth : Nat) (children : List Element) :
    rereadAll depth children = children.map (reread depth) := by
  induction children with
  | nil => rfl
  | cons e rest ih => rw [rereadAll, ih, List.map_cons]

theorem bare_reread (e : Element) : ∀ depth, (e.reread depth).bare = e.bare := by
  induction e using Element.induction with
  | step e ih =>
    intro depth
    obtain ⟨tag, attributes, children, text, checked, settled⟩ := e
    rw [reread, bare_eq, bare_eq, rereadAll_eq_map, List.map_map]
    congr 1
    exact List.map_congr_left fun c member => ih c member (depth + 1)

/-- The text of an element is found again just in case it is kept. -/
theorem foundText_iff {depth : Nat} {children : List Element} {text : Option String} :
    (if isBlankText (text.getD "" ++ gaps depth children) then none
      else some (text.getD "" ++ gaps depth children)) = text ↔
      ∀ t, text = some t → children = [] ∧ isBlankText t = false := by
  rw [isBlankText_append, isBlankText_gaps, Bool.and_true]
  cases text with
  | none =>
    have blank : isBlankText "" = true := rfl
    simp [blank]
  | some t =>
    cases blank : isBlankText t with
    | true => simp [blank]
    | false => simp [blank, gaps_eq_empty_iff]

theorem same_reread_iff {e : Element} :
    ∀ (depth : Nat), e.Everywhere Markup.WellNamed →
      ((e.reread depth).same e = true ↔ e.Everywhere KeepsText) := by
  induction e using Element.induction with
  | step e ih =>
    intro depth named
    obtain ⟨here, inner⟩ := everywhere_iff.1 named
    obtain ⟨tag, attributes, children, text, checked, settled⟩ := e
    have inside : (∀ c ∈ children, (c.reread (depth + 1)).same c = true) ↔
        ∀ c ∈ children, c.Everywhere KeepsText :=
      forall₂_congr fun c member => ih c member (depth + 1) (inner c member)
    rw [reread, same, rereadAll_eq_map, beq_self_eq_true, sameAttributes_self here.distinct,
      Bool.true_and, Bool.true_and, Bool.and_eq_true, beq_iff_eq, sameAll_map_iff, inside,
      foundText_iff, everywhere_iff]
    rfl

end Element

/-! ### Documents -/

/-- A document that is written and read back has the same tags, attributes and children; it is the
same document just in case every text stands alone and is not blank. A document with more than 256
elements inside each other is refused. -/
theorem Element.readText_toXml_spec {e : Element} (named : e.Everywhere Markup.WellNamed) :
    (e.depth ≤ 256 →
      ∃ found, Markup.readText e.toXml = .ok found ∧ found.bare = e.bare ∧
        (found.same e = true ↔ e.Everywhere KeepsText)) ∧
    (256 < e.depth →
      ∃ place, Markup.readText e.toXml = .error (.point (.limit (.depth 256)) place)) := by
  constructor
  · intro room
    exact ⟨e.reread 0, Markup.readText_toXml named room, bare_reread e 0, same_reread_iff 0 named⟩
  · exact Markup.readText_toXml_deep named

/-- An attribute with quotes and a line break, and a text with markup. -/
def sampleNote : Element :=
  { tag := "note", attributes := [("xml:id", "a \"b\"\n<c>")],
    children := [{ tag := "step", text := some "A & <B>\n" }] }

theorem sampleNote_named : sampleNote.Everywhere Markup.WellNamed := by
  have names : Markup.IsName "note" ∧ Markup.IsName "xml:id" ∧ Markup.IsName "step" := by
    decide
  rw [Element.everywhere_iff]
  refine ⟨⟨names.1, by simpa [sampleNote] using names.2.1, by decide⟩, fun c member => ?_⟩
  obtain rfl := List.mem_singleton.1 member
  rw [Element.everywhere_iff]
  exact ⟨⟨names.2.2, nofun, by decide⟩, nofun⟩

theorem sampleNote_readText :
    (∃ found, Markup.readText sampleNote.toXml = .ok found ∧ found.bare = sampleNote.bare ∧
      (found.same sampleNote = true ↔ sampleNote.Everywhere Element.KeepsText)) ∧
    sampleNote.depth = 2 :=
  ⟨(Element.readText_toXml_spec sampleNote_named).1 (by decide), by decide⟩

end ScoreScript
