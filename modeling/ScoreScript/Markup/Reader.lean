import ScoreScript.Decimal.Digits
import ScoreScript.Error
import ScoreScript.Limits
import ScoreScript.Markup.Element
import ScoreScript.Source.Cursor
import ScoreScript.Text.Blank
import ScoreScript.Text.Utf8

/-!
References in texts and attribute values. An ampersand begins a reference, which ends at the
next semicolon and names one character: by one of five words, or by its number.
-/

namespace ScoreScript.Entity

/-- The number written by digits. A plus sign may stand in front. -/
def signed? (base : Nat) (cs : List Char) : Option Nat :=
  match cs with
  | '+' :: digits => number? base charLimit digits
  | digits => number? base charLimit digits

/-- The character that a reference names. -/
def char (name : List Char) : Option Char :=
  match name with
  | ['a', 'm', 'p'] => some '&'
  | ['l', 't'] => some '<'
  | ['g', 't'] => some '>'
  | ['q', 'u', 'o', 't'] => some '"'
  | ['a', 'p', 'o', 's'] => some '\''
  | '#' :: 'x' :: digits => (signed? 16 digits).bind char?
  | '#' :: digits => (signed? 10 digits).bind char?
  | _ => none

private def fail {α : Type} (name : List Char) : Except Error α :=
  .error (.bare (.grammar (.entity (String.ofList name))))

/-- The text with each reference replaced by its character, after the characters in `before`,
last first. -/
def decodeFrom (before : List Char) (text : List Char) : Except Error (List Char) :=
  match text with
  | [] => .ok before.reverse
  | '&' :: after =>
    let name := after.takeWhile (· ≠ ';')
    match after.drop name.length with
    | [] => fail after
    | _ :: _ =>
      match char name with
      | some c => decodeFrom (c :: before) (after.drop (name.length + 1))
      | none => fail name
  | c :: rest => decodeFrom (c :: before) rest
termination_by text.length
decreasing_by all_goals simp only [List.length_cons, List.length_drop]; omega

def decode (text : String) : Except Error String :=
  (decodeFrom [] text.toList).map String.ofList

end ScoreScript.Entity

/-!
Documents read from XML: elements with attributes, text and references. A declaration, a
document type, comments and processing instructions are passed over, and a CDATA section is
text. Elements whose closing tag is still to come wait on a stack, so the depth of a document
is the height of that stack.
-/

namespace ScoreScript.Markup

private def fail {α : Type} (fault : MarkupFault) (c : Cursor) : Except Error α :=
  .error (.point (.grammar (.markup fault)) c.pos)

/-- The deepest nesting that is read. -/
def maxDepth : Nat := 256

def textOf (bytes : List UInt8) : Except Error String :=
  match ofUtf8? bytes with
  | some text => .ok text
  | none => .error (.bare (.grammar (.markup .utf8)))

def isNameStart (b : UInt8) : Bool :=
  (0x41 ≤ b && b ≤ 0x5A) || (0x61 ≤ b && b ≤ 0x7A) || b == 0x5F || b == 0x3A || 0x80 ≤ b

def isNameByte (b : UInt8) : Bool :=
  isNameStart b || Cursor.isDigit b || b == 0x2D || b == 0x2E

def expect (c : Cursor) (char : Char) : Except Error Cursor :=
  match c.consume? char.toUInt8 with
  | some after => .ok after
  | none => fail (.missing char) c

/-- Pass everything up to and including `word`. -/
def skipPast (c : Cursor) (word : String) : Except Error Cursor :=
  match c.skipPast word with
  | .ok after => .ok after
  | .error stop => fail .openMarkup stop

theorem length_expect_lt {c after : Cursor} {char : Char} (h : expect c char = .ok after) :
    after.rest.length < c.rest.length := by
  unfold expect at h
  split at h
  · rename_i here
    cases h
    exact Cursor.length_consume?_lt here
  · cases h

theorem length_skipPast_le {c after : Cursor} {word : String} (h : skipPast c word = .ok after) :
    after.rest.length ≤ c.rest.length := by
  unfold skipPast at h
  split at h
  · rename_i past
    cases h
    exact Cursor.length_skipPast_le past
  · cases h

/-- Where a processing instruction or a comment begins: how many bytes of its mark follow the
first, and the word that ends it. -/
def miscAt (c : Cursor) : Option (Nat × String) :=
  if c.startsWith "<?" then some (1, "?>")
  else if c.startsWith "<!--" then some (3, "-->")
  else none

/-- Pass what begins with a byte and `extra` more, up to and including `word`. -/
def skipRegion (c : Cursor) (extra : Nat) (word : String) : Except Error Cursor :=
  skipPast (c.advanceBy (extra + 1)) word

theorem length_skipRegion_lt {c after : Cursor} {extra : Nat} {word : String}
    (pos : 0 < c.rest.length) (h : skipRegion c extra word = .ok after) :
    after.rest.length < c.rest.length := by
  have le := length_skipPast_le h
  rw [Cursor.length_advanceBy] at le
  omega

theorem length_pos_of_miscAt {c : Cursor} {mark : Nat × String} (h : miscAt c = some mark) :
    0 < c.rest.length := by
  unfold miscAt at h
  split at h
  · rename_i start
    exact Nat.lt_of_lt_of_le (by decide) (Cursor.length_of_startsWith start)
  · split at h
    · rename_i start
      exact Nat.lt_of_lt_of_le (by decide) (Cursor.length_of_startsWith start)
    · cases h

/-- Pass white space, processing instructions and comments. -/
def skipMisc (c : Cursor) : Except Error Cursor :=
  match mark : miscAt c.skipWhitespace with
  | none => .ok c.skipWhitespace
  | some (extra, word) =>
    match region : skipRegion c.skipWhitespace extra word with
    | .error e => .error e
    | .ok after =>
      have _ : after.rest.length < c.rest.length :=
        Nat.lt_of_lt_of_le (length_skipRegion_lt (length_pos_of_miscAt mark) region)
          (Cursor.length_skipWhile_le c _)
      skipMisc after
termination_by c.rest.length

/-- The number of bytes up to the end of a document type. Inside brackets the sign that ends
it has no meaning. -/
def doctypeLength? (brackets passed : Nat) : List UInt8 → Option Nat
  | [] => none
  | b :: rest =>
    match Char.ofUInt8 b with
    | '[' => doctypeLength? (brackets + 1) (passed + 1) rest
    | ']' => doctypeLength? (brackets - 1) (passed + 1) rest
    | '>' =>
      if brackets = 0 then some (passed + 1) else doctypeLength? brackets (passed + 1) rest
    | _ => doctypeLength? brackets (passed + 1) rest

def skipDoctype (c : Cursor) : Except Error Cursor :=
  match doctypeLength? 0 0 c.rest with
  | some count => .ok (c.advanceBy count)
  | none => fail .openDoctype (c.advanceBy c.rest.length)

/-- Pass what may stand before the root element. -/
def skipProlog (c : Cursor) : Except Error Cursor := do
  let c ← skipMisc c
  if c.startsWith "<!DOCTYPE" then skipMisc (← skipDoctype c) else pure c

def readName (c : Cursor) : Except Error (String × Cursor) :=
  if c.current.any isNameStart then
    let after := c.skipWhile isNameByte
    (textOf (c.upTo after)).map fun name => (name, after)
  else fail .missingName c

/-- The attribute value between two quotes of the same kind. -/
def readValue (c : Cursor) : Except Error (String × Cursor) :=
  match c.current with
  | some quote =>
    if quote = 0x22 ∨ quote = 0x27 then
      let start := c.advance
      let close := start.skipWhile (· != quote)
      if close.isEnd then fail .openAttributeValue close
      else do
        let raw ← textOf (start.upTo close)
        let value ← Entity.decode raw
        pure (value, close.advance)
    else fail .bareAttributeValue c
  | none => fail .bareAttributeValue c

/-- An attribute: its name, an equals sign, its value. -/
def readAttribute (c : Cursor) : Except Error ((String × String) × Cursor) := do
  let (name, c) ← readName c
  let c ← expect c.skipWhitespace '='
  let (value, c) ← readValue c.skipWhitespace
  pure ((name, value), c)

theorem length_readName_lt {c after : Cursor} {name : String}
    (h : readName c = .ok (name, after)) : after.rest.length < c.rest.length := by
  unfold readName at h
  split at h
  · rename_i start
    have named : c.current.any isNameByte = true := by
      obtain ⟨b, here, first⟩ := (Option.any_eq_true _ _).1 start
      exact (Option.any_eq_true _ _).2 ⟨b, here, by simp [isNameByte, first]⟩
    cases text : textOf (c.upTo (c.skipWhile isNameByte)) with
    | error e => simp [text, Except.map] at h
    | ok name =>
      simp only [text, Except.map] at h
      cases h
      exact Cursor.length_skipWhile_lt named
  · cases h

theorem length_readValue_le {c after : Cursor} {value : String}
    (h : readValue c = .ok (value, after)) : after.rest.length ≤ c.rest.length := by
  unfold readValue at h
  split at h
  · split at h
    · rename_i quote _ _
      have opened := Cursor.length_advance_le c
      have passed := Cursor.length_skipWhile_le c.advance (· != quote)
      have closed := Cursor.length_advance_le (c.advance.skipWhile (· != quote))
      simp only [] at h
      split at h
      · cases h
      · simp only [bind, Except.bind, pure, Except.pure] at h
        split at h
        · cases h
        · split at h
          · cases h
          · cases h
            omega
    · cases h
  · cases h

theorem length_readAttribute_lt {c after : Cursor} {entry : String × String}
    (h : readAttribute c = .ok (entry, after)) : after.rest.length < c.rest.length := by
  unfold readAttribute at h
  simp only [bind, Except.bind, pure, Except.pure] at h
  split at h
  · cases h
  · rename_i named name_eq
    split at h
    · cases h
    · rename_i equals equals_eq
      split at h
      · cases h
      · rename_i valued value_eq
        cases h
        have first := length_readName_lt name_eq
        have second := length_expect_lt equals_eq
        have third := length_readValue_le value_eq
        have blank := Cursor.length_skipWhile_le named.2 Cursor.isWhitespace
        have blank' := Cursor.length_skipWhile_le equals Cursor.isWhitespace
        simp only [Cursor.skipWhitespace] at second third
        omega

/-- The attributes of a start tag up to the sign that ends it, after those in `before`. -/
def readAttributes (before : Assoc String) (c : Cursor) :
    Except Error (Assoc String × Cursor) :=
  match c.skipWhitespace.look with
  | some '/' | some '>' => .ok (before, c.skipWhitespace)
  | none => fail .openTag c.skipWhitespace
  | some _ =>
    match attribute_eq : readAttribute c.skipWhitespace with
    | .error e => .error e
    | .ok ((name, value), after) =>
      have _ : after.rest.length < c.rest.length :=
        Nat.lt_of_lt_of_le (length_readAttribute_lt attribute_eq)
          (Cursor.length_skipWhile_le c _)
      if before.contains name then fail .repeatedAttribute after
      else readAttributes (before ++ [(name, value)]) after
termination_by c.rest.length

theorem length_readAttributes_le {before entries : Assoc String} {c after : Cursor}
    (h : readAttributes before c = .ok (entries, after)) :
    after.rest.length ≤ c.rest.length := by
  fun_induction readAttributes before c with
  | case1 | case2 =>
    cases h
    exact Cursor.length_skipWhile_le _ _
  | case6 _ _ _ _ _ _ _ _ _ _ shorter _ ih => exact Nat.le_trans (ih h) (Nat.le_of_lt shorter)
  | _ => cases h

/-- An element whose closing tag is still to come: its tag and attributes, its children, last
first, and its text. -/
structure OpenElement where
  tag : String
  attributes : Assoc String
  children : List Element
  text : String

namespace OpenElement

def addChild (e : OpenElement) (child : Element) : OpenElement :=
  { e with children := child :: e.children }

/-- The finished element. Text that is nothing but white space is none. -/
def close (e : OpenElement) : Element :=
  { tag := e.tag
    attributes := e.attributes
    children := e.children.reverse
    text := if isBlankText e.text then none else some e.text }

end OpenElement

/-- A start tag or an empty tag; the flag tells the latter. -/
def startTag (c : Cursor) : Except Error ((OpenElement × Bool) × Cursor) := do
  let c ← expect c '<'
  if c.look = some '/' then fail .closingTag c
  let (tag, c) ← readName c
  let (attributes, c) ← readAttributes [] c
  let empty := (c.consume? 0x2F).isSome
  let c ← expect (c.skipOptional 0x2F) '>'
  pure ((⟨tag, attributes, [], ""⟩, empty), c)

/-- What stands at one place inside an element. -/
inductive ContentMark where
  | closingTag
  | comment
  | cdata
  | instruction
  | child
  | text
  deriving DecidableEq, Repr

def ContentMark.of (c : Cursor) : ContentMark :=
  if c.startsWith "</" then .closingTag
  else if c.startsWith "<!--" then .comment
  else if c.startsWith "<![CDATA[" then .cdata
  else if c.startsWith "<?" then .instruction
  else if c.startsWith "<" then .child
  else .text

/-- The rest of a closing tag after its first two bytes. -/
def closingTag (tag : String) (c : Cursor) : Except Error Cursor := do
  let (name, c) ← readName c
  if name = tag then expect c.skipWhitespace '>' else fail .mismatchedTag c

def OpenElement.addText (e : OpenElement) (text : String) : OpenElement :=
  { e with text := e.text ++ text }

/-- A CDATA section, whose content is text as it stands. -/
def cdata (c : Cursor) : Except Error (String × Cursor) := do
  let start := c.advanceBy 9
  let after ← skipPast start "]]>"
  let raw := start.upTo after
  let text ← textOf (raw.take (raw.length - 3))
  pure (text, after)

/-- Text up to the next tag, its references replaced. -/
def plainText (c : Cursor) : Except Error (String × Cursor) := do
  let after := c.advance.skipWhile (· != 0x3C)
  let raw ← textOf (c.upTo after)
  let text ← Entity.decode raw
  pure (text, after)

theorem length_startTag_lt {c after : Cursor} {tag : OpenElement × Bool}
    (h : startTag c = .ok (tag, after)) : after.rest.length < c.rest.length := by
  unfold startTag at h
  simp only [bind, Except.bind, pure, Except.pure] at h
  split at h
  · cases h
  · rename_i inner inner_eq
    have first := length_expect_lt inner_eq
    split at h
    · cases h
    · split at h
      · cases h
      · rename_i named name_eq
        have second := length_readName_lt name_eq
        split at h
        · cases h
        · rename_i attributes attributes_eq
          have third := length_readAttributes_le attributes_eq
          split at h
          · cases h
          · rename_i closed close_eq
            cases h
            have fourth := length_expect_lt close_eq
            have slash := Cursor.length_skipOptional_le attributes.2 0x2F
            omega

theorem length_closingTag_lt {tag : String} {c after : Cursor}
    (h : closingTag tag c = .ok after) : after.rest.length < c.rest.length := by
  unfold closingTag at h
  simp only [bind, Except.bind] at h
  split at h
  · cases h
  · rename_i named name_eq
    have first := length_readName_lt name_eq
    split at h
    · have second := length_expect_lt h
      have blank := Cursor.length_skipWhile_le named.2 Cursor.isWhitespace
      simp only [Cursor.skipWhitespace] at second
      omega
    · cases h

theorem length_cdata_lt {c after : Cursor} {text : String} (pos : 0 < c.rest.length)
    (h : cdata c = .ok (text, after)) : after.rest.length < c.rest.length := by
  unfold cdata at h
  simp only [bind, Except.bind, pure, Except.pure] at h
  split at h
  · cases h
  · rename_i past past_eq
    have le := length_skipPast_le past_eq
    rw [Cursor.length_advanceBy] at le
    split at h
    · cases h
    · cases h
      omega

theorem length_plainText_lt {c after : Cursor} {text : String} (pos : 0 < c.rest.length)
    (h : plainText c = .ok (text, after)) : after.rest.length < c.rest.length := by
  have le := Cursor.length_skipWhile_le c.advance (· != 0x3C)
  rw [Cursor.length_advance] at le
  unfold plainText at h
  simp only [bind, Except.bind, pure, Except.pure] at h
  split at h
  · cases h
  · split at h
    · cases h
    · cases h
      omega

/-- Collect the text of an element up to its closing tag, which is passed, or up to a child,
which is not. The flag tells whether the element is closed. -/
def content (e : OpenElement) (c : Cursor) : Except Error ((OpenElement × Bool) × Cursor) :=
  if here : c.isEnd then fail .openElement c
  else
    have pos := Cursor.length_pos_of_not_isEnd here
    match ContentMark.of c with
    | .closingTag =>
      (closingTag e.tag (c.advanceBy 2)).map fun after => ((e, true), after)
    | .child => .ok ((e, false), c)
    | .comment =>
      match region : skipRegion c 3 "-->" with
      | .error err => .error err
      | .ok after =>
        have _ := length_skipRegion_lt pos region
        content e after
    | .instruction =>
      match region : skipRegion c 1 "?>" with
      | .error err => .error err
      | .ok after =>
        have _ := length_skipRegion_lt pos region
        content e after
    | .cdata =>
      match section_eq : cdata c with
      | .error err => .error err
      | .ok (text, after) =>
        have _ := length_cdata_lt pos section_eq
        content (e.addText text) after
    | .text =>
      match text_eq : plainText c with
      | .error err => .error err
      | .ok (text, after) =>
        have _ := length_plainText_lt pos text_eq
        content (e.addText text) after
termination_by c.rest.length

theorem length_content_le {e e' : OpenElement} {closed : Bool} {c after : Cursor}
    (h : content e c = .ok ((e', closed), after)) :
    after.rest.length ≤ c.rest.length ∧ (closed = true → after.rest.length < c.rest.length) := by
  fun_induction content e c with
  | case2 e c here mark =>
    cases close : closingTag e.tag (c.advanceBy 2) with
    | error err => simp [close, Except.map] at h
    | ok rest =>
      simp only [close, Except.map] at h
      cases h
      have lt := length_closingTag_lt close
      rw [Cursor.length_advanceBy] at lt
      exact ⟨by omega, fun _ => by omega⟩
  | case3 =>
    cases h
    exact ⟨Nat.le_refl _, fun impossible => by cases impossible⟩
  | case5 _ _ _ _ _ _ _ shorter ih | case7 _ _ _ _ _ _ _ shorter ih
  | case9 _ _ _ _ _ _ _ _ shorter ih | case11 _ _ _ _ _ _ _ _ shorter ih =>
    have step := ih h
    exact ⟨by omega, fun closed => by have := step.2 closed; omega⟩
  | _ => cases h

/-- Read on inside the innermost open element `top` until the outermost one is closed. -/
def inside (top : OpenElement) (below : List OpenElement) (c : Cursor) :
    Except Error (Element × Cursor) :=
  match content_eq : content top c with
  | .error e => .error e
  | .ok ((e, true), after) =>
    have _ := (length_content_le content_eq).2 rfl
    match below with
    | [] => .ok (e.close, after)
    | parent :: rest => inside (parent.addChild e.close) rest after
  | .ok ((e, false), after) =>
    if maxDepth ≤ below.length + 1 then
      .error (.point (.limit (.depth maxDepth)) after.pos)
    else
      match tag_eq : startTag after with
      | .error e => .error e
      | .ok ((child, empty), next) =>
        have _ : next.rest.length < c.rest.length :=
          Nat.lt_of_lt_of_le (length_startTag_lt tag_eq) (length_content_le content_eq).1
        if empty then inside (e.addChild child.close) below next
        else inside child (e :: below) next
termination_by c.rest.length

/-- The element at the cursor. -/
def readElement (c : Cursor) : Except Error (Element × Cursor) := do
  let ((root, empty), c) ← startTag c
  if empty then pure (root.close, c) else inside root [] c

/-- The root element of a document. -/
def read (bytes : List UInt8) : Except Error Element := do
  let c ← skipProlog (.ofBytes bytes)
  let (root, c) ← readElement c
  let c ← skipMisc c
  if c.isEnd then pure root else fail .trailingContent c

def readText (text : String) : Except Error Element :=
  read (utf8 text)

end ScoreScript.Markup
