import ScoreScript.Proofs.Markup.Content
import ScoreScript.Proofs.Stateful

/-!
Elements read by recursion. The direct way to read an element is to read its start tag, and then
text and children up to its closing tag, each child in the same way and one level deeper. The reader
does not call itself, but keeps the elements that are open on a stack. It comes to the same: what is
on the stack is what the calls would wait with. Main statements: `inside_eq`, `readElement_eq`.
-/

namespace ScoreScript.Markup

/-- What was read at a cursor. Some bytes were passed, and reading goes on behind them. -/
structure Passing (α : Type) (c : Cursor) where
  value : α
  after : Cursor
  shorter : after.rest.length < c.rest.length

/-- What was read is part of what is read from an earlier place on. -/
def Passing.since {α β : Type} {c d : Cursor} (f : α → β)
    (earlier : d.rest.length < c.rest.length) (r : Passing α d) : Passing β c :=
  ⟨f r.value, r.after, Nat.lt_trans r.shorter earlier⟩

/-- The text at one place inside an element. Comments and instructions have none. -/
def piece (mark : ContentMark) (c : Cursor) : Except Error (String × Cursor) :=
  match mark with
  | .comment => (skipRegion c 3 "-->").map fun after => ("", after)
  | .instruction => (skipRegion c 1 "?>").map fun after => ("", after)
  | .cdata => cdata c
  | _ => plainText c

theorem length_piece_lt {mark : ContentMark} {c after : Cursor} {text : String}
    (pos : 0 < c.rest.length) (read : piece mark c = .ok (text, after)) :
    after.rest.length < c.rest.length := by
  have region {extra : Nat} {word : String}
      (read : (skipRegion c extra word).map (fun after => ("", after)) = .ok (text, after)) :
      after.rest.length < c.rest.length := by
    cases passed : skipRegion c extra word with
    | error e =>
      rw [passed] at read
      cases read
    | ok behind =>
      rw [passed] at read
      cases read
      exact length_skipRegion_lt pos passed
  cases mark with
  | comment => exact region read
  | instruction => exact region read
  | cdata => exact length_cdata_lt pos read
  | _ => exact length_plainText_lt pos read

theorem length_closing_lt {tag : String} {c after : Cursor}
    (closed : closingTag tag (c.advanceBy 2) = .ok after) :
    after.rest.length < c.rest.length := by
  have lt := length_closingTag_lt closed
  rw [Cursor.length_advanceBy] at lt
  omega

/-- An open element with what stands inside it: children, and text. -/
def OpenElement.fill (e : OpenElement) (inner : List Element × String) : OpenElement :=
  { e with children := inner.1.reverse ++ e.children, text := e.text ++ inner.2 }

namespace Passing

mutual

/-- The element at the cursor, which lies at a depth. One that lies too deep is not looked at. -/
def element (depth : Nat) (c : Cursor) : Except Error (Passing Element c) :=
  if maxDepth < depth then .error (.point (.limit (.depth maxDepth)) c.pos)
  else
    match opened : startTag c with
    | .error e => .error e
    | .ok ((e, true), next) => .ok ⟨e.close, next, length_startTag_lt opened⟩
    | .ok ((e, false), next) =>
      have earlier := length_startTag_lt opened
      (body depth e.tag next).map (.since (fun inner => (e.fill inner).close) earlier)
termination_by (c.rest.length, 0)

/-- The children and the text up to the closing tag, inside an element that lies at a depth. -/
def body (depth : Nat) (tag : String) (c : Cursor) :
    Except Error (Passing (List Element × String) c) :=
  if here : c.isEnd then .error (.point (.grammar (.markup .openElement)) c.pos)
  else
    have pos := Cursor.length_pos_of_not_isEnd here
    match ContentMark.of c with
    | .closingTag =>
      match closed : closingTag tag (c.advanceBy 2) with
      | .error e => .error e
      | .ok next => .ok ⟨([], ""), next, length_closing_lt closed⟩
    | .child =>
      match element (depth + 1) c with
      | .error e => .error e
      | .ok child =>
        have earlier := child.shorter
        (body depth tag child.after).map
          (.since (fun inner => (child.value :: inner.1, inner.2)) earlier)
    | mark =>
      match read : piece mark c with
      | .error e => .error e
      | .ok (text, next) =>
        have earlier := length_piece_lt pos read
        (body depth tag next).map (.since (fun inner => (inner.1, text ++ inner.2)) earlier)
termination_by (c.rest.length, 1)

end

end Passing

/-- The element at the cursor, which lies at a depth, by recursion. -/
def element (depth : Nat) (c : Cursor) : Except Error (Element × Cursor) :=
  (Passing.element depth c).map fun read => (read.value, read.after)

/-- What is inside an element that lies at a depth, up to its closing tag, by recursion. -/
def body (depth : Nat) (tag : String) (c : Cursor) :
    Except Error ((List Element × String) × Cursor) :=
  (Passing.body depth tag c).map fun read => (read.value, read.after)

/-- An element is an empty tag, or a start tag and a body. -/
theorem element_eq (depth : Nat) (c : Cursor) :
    element depth c =
      if maxDepth < depth then .error (.point (.limit (.depth maxDepth)) c.pos)
      else (do
        let ((e, empty), next) ← startTag c
        if empty then pure (e.close, next)
        else do
          let (inner, after) ← body depth e.tag next
          pure ((e.fill inner).close, after)) := by
  rw [element, Passing.element]
  split
  · rfl
  · split
    · rename_i opened
      simp only [opened]
      rfl
    · rename_i opened
      simp only [opened]
      rfl
    · rename_i e next opened
      simp only [opened, bind, Except.bind, body]
      cases Passing.body depth e.tag next <;> rfl

/-- A body is a closing tag, or a child or a piece of text before another body. -/
theorem body_eq (depth : Nat) (tag : String) (c : Cursor) :
    body depth tag c =
      if c.isEnd then .error (.point (.grammar (.markup .openElement)) c.pos)
      else
        match ContentMark.of c with
        | .closingTag => do
          let next ← closingTag tag (c.advanceBy 2)
          pure (([], ""), next)
        | .child => do
          let (child, next) ← element (depth + 1) c
          let (inner, after) ← body depth tag next
          pure ((child :: inner.1, inner.2), after)
        | mark => (do
          let (text, next) ← piece mark c
          let (inner, after) ← body depth tag next
          pure ((inner.1, text ++ inner.2), after)) := by
  rw [body, Passing.body]
  by_cases here : c.isEnd = true
  · rw [dif_pos here, if_pos here]
    rfl
  · rw [dif_neg here, if_neg here]
    split
    · split
      · rename_i closed
        simp only [closed]
        rfl
      · rename_i closed
        simp only [closed]
        rfl
    · rw [element]
      cases Passing.element (depth + 1) c with
      | error e => rfl
      | ok child =>
        dsimp only [Except.map, bind, Except.bind, body]
        cases Passing.body depth tag child.after <;> rfl
    · split
      · rename_i read
        simp only [read]
        rfl
      · rename_i text next read
        simp only [read, bind, Except.bind, body]
        cases Passing.body depth tag next <;> rfl

/-! ### One step on the stack -/

theorem addText_none (e : OpenElement) : e.addText "" = e := by
  rw [OpenElement.addText, String.append_empty]

/-- A piece of text is passed, and added to the text before it. -/
theorem content_piece {mark : ContentMark} {c : Cursor} (e : OpenElement) (more : ¬c.isEnd = true)
    (here : ContentMark.of c = mark) (inner : mark ≠ .closingTag ∧ mark ≠ .child) :
    content e c =
      match piece mark c with
      | .error err => .error err
      | .ok (text, after) => content (e.addText text) after := by
  rw [content.eq_def e c, dif_neg more]
  cases mark with
  | closingTag => exact absurd rfl inner.1
  | child => exact absurd rfl inner.2
  | comment =>
    simp only [here, piece]
    cases skipRegion c 3 "-->" with
    | error err => rfl
    | ok after => simp only [Except.map, addText_none]
  | instruction =>
    simp only [here, piece]
    cases skipRegion c 1 "?>" with
    | error err => rfl
    | ok after => simp only [Except.map, addText_none]
  | cdata =>
    simp only [here, piece]
    cases cdata c <;> rfl
  | text =>
    simp only [here, piece]
    cases plainText c <;> rfl

/-- Reading on inside an element goes by what its content is. -/
theorem inside_content (top : OpenElement) (below : List OpenElement) (c : Cursor) :
    inside top below c =
      match content top c with
      | .error err => .error err
      | .ok ((e, true), after) => resume e.close below after
      | .ok ((e, false), after) =>
        if maxDepth ≤ below.length + 1 then .error (.point (.limit (.depth maxDepth)) after.pos)
        else
          match startTag after with
          | .error err => .error err
          | .ok ((child, empty), next) =>
            if empty then inside (e.addChild child.close) below next
            else inside child (e :: below) next := by
  rw [inside.eq_def]
  split
  · rename_i found
    simp only [found]
  · rename_i found
    simp only [found]
    cases below <;> rfl
  · rename_i found
    simp only [found]
    by_cases deep : maxDepth ≤ below.length + 1
    · rw [if_pos deep, if_pos deep]
    · rw [if_neg deep, if_neg deep]
      split <;> rename_i opened <;> simp only [opened]

section

variable {top : OpenElement} {below : List OpenElement} {c : Cursor}

theorem inside_last (last : c.isEnd = true) :
    inside top below c = .error (.point (.grammar (.markup .openElement)) c.pos) := by
  rw [inside_content, content.eq_def, dif_pos last]
  rfl

theorem inside_closing (more : ¬c.isEnd = true) (mark : ContentMark.of c = .closingTag) :
    inside top below c = (do
      let next ← closingTag top.tag (c.advanceBy 2)
      resume top.close below next) := by
  rw [inside_content, content.eq_def, dif_neg more]
  simp only [mark]
  cases closingTag top.tag (c.advanceBy 2) <;> rfl

theorem inside_opening (more : ¬c.isEnd = true) (mark : ContentMark.of c = .child) :
    inside top below c =
      if maxDepth ≤ below.length + 1 then .error (.point (.limit (.depth maxDepth)) c.pos)
      else (do
        let ((child, empty), next) ← startTag c
        if empty then inside (top.addChild child.close) below next
        else inside child (top :: below) next) := by
  rw [inside_content, content.eq_def, dif_neg more]
  simp only [mark]
  cases startTag c <;> rfl

theorem inside_piece (more : ¬c.isEnd = true)
    (inner : ContentMark.of c ≠ .closingTag ∧ ContentMark.of c ≠ .child) :
    inside top below c = (do
      let (text, next) ← piece (ContentMark.of c) c
      inside (top.addText text) below next) := by
  rw [inside_content, content_piece top more rfl inner]
  cases piece (ContentMark.of c) c with
  | error err => rfl
  | ok read => exact (inside_content (top.addText read.1) below read.2).symm

end

/-! ### The same by recursion -/

theorem tag_addChild (e : OpenElement) (child : Element) : (e.addChild child).tag = e.tag := rfl

theorem tag_addText (e : OpenElement) (text : String) : (e.addText text).tag = e.tag := rfl

theorem fill_nothing (e : OpenElement) : e.fill ([], "") = e := by
  rw [OpenElement.fill, List.reverse_nil, List.nil_append, String.append_empty]

theorem fill_addChild (e : OpenElement) (child : Element) (inner : List Element × String) :
    (e.addChild child).fill inner = e.fill (child :: inner.1, inner.2) := by
  simp only [OpenElement.fill, OpenElement.addChild, List.reverse_cons, List.append_assoc,
    List.singleton_append]

theorem fill_addText (e : OpenElement) (text : String) (inner : List Element × String) :
    (e.addText text).fill inner = e.fill (inner.1, text ++ inner.2) := by
  simp only [OpenElement.fill, OpenElement.addText, String.append_assoc]

theorem length_element_lt {depth : Nat} {c after : Cursor} {e : Element}
    (read : element depth c = .ok (e, after)) : after.rest.length < c.rest.length := by
  rw [element] at read
  obtain ⟨found, -, same⟩ := ok_of_map read
  cases same
  exact found.shorter

theorem length_body_lt {depth : Nat} {tag : String} {c after : Cursor}
    {inner : List Element × String} (read : body depth tag c = .ok (inner, after)) :
    after.rest.length < c.rest.length := by
  rw [body] at read
  obtain ⟨found, -, same⟩ := ok_of_map read
  cases same
  exact found.shorter

/-- From a place on, reading on inside the innermost open element is to read its body, and then to
read on inside the element around it. -/
def Unwinds (c : Cursor) : Prop :=
  ∀ top below, inside top below c = (do
    let (inner, after) ← body (below.length + 1) top.tag c
    resume (top.fill inner).close below after)

section

variable {c : Cursor} (more : ¬c.isEnd = true)
include more

theorem unwinds_closing (mark : ContentMark.of c = .closingTag) : Unwinds c := by
  intro top below
  rw [inside_closing more mark, body_eq, if_neg more, mark]
  cases closingTag top.tag (c.advanceBy 2) with
  | error err => rfl
  | ok next =>
    change resume top.close below next = resume (top.fill ([], "")).close below next
    rw [fill_nothing]

variable (shorter : ∀ next : Cursor, next.rest.length < c.rest.length → Unwinds next)
include shorter

theorem unwinds_piece (inner : ContentMark.of c ≠ .closingTag ∧ ContentMark.of c ≠ .child) :
    Unwinds c := by
  intro top below
  have step : inside top below c = ((do
      let (text, next) ← piece (ContentMark.of c) c
      let (inner, after) ← body (below.length + 1) top.tag next
      pure ((inner.1, text ++ inner.2), after)) >>= fun (inner, after) =>
        resume (top.fill inner).close below after) := by
    rw [inside_piece more inner]
    cases read : piece (ContentMark.of c) c with
    | error err => rfl
    | ok found =>
      obtain ⟨text, next⟩ := found
      have rest := shorter next (length_piece_lt (Cursor.length_pos_of_not_isEnd more) read)
        (top.addText text) below
      simp only [fill_addText, tag_addText] at rest
      refine rest.trans ?_
      change _ = (body _ _ _ >>= _) >>= _
      rw [bind_assoc]
      rfl
  rw [body_eq, if_neg more]
  cases mark : ContentMark.of c with
  | closingTag => exact absurd mark inner.1
  | child => exact absurd mark inner.2
  | _ =>
    rw [mark] at step
    exact step

theorem unwinds_child (mark : ContentMark.of c = .child) : Unwinds c := by
  intro top below
  -- what follows the child is the rest of the body around it
  have onward {next : Cursor} (later : next.rest.length < c.rest.length) (child : Element) :
      inside (top.addChild child) below next = (do
        let (inner, after) ← body (below.length + 1) top.tag next
        resume (top.fill (child :: inner.1, inner.2)).close below after) := by
    simpa only [fill_addChild, tag_addChild] using shorter next later (top.addChild child) below
  rw [inside_opening more mark, body_eq, if_neg more, mark]
  dsimp only
  rw [element_eq]
  by_cases deep : maxDepth ≤ below.length + 1
  · rw [if_pos deep, if_pos (Nat.lt_succ_of_le deep)]
    rfl
  · rw [if_neg deep, if_neg (fun deeper => deep (Nat.le_of_lt_succ deeper))]
    cases opened : startTag c with
    | error err => rfl
    | ok tag =>
      obtain ⟨⟨child, empty⟩, next⟩ := tag
      have later : next.rest.length < c.rest.length := length_startTag_lt opened
      cases empty with
      | true =>
        refine (onward later child.close).trans ?_
        change _ = (body _ _ _ >>= _) >>= _
        rw [bind_assoc]
        rfl
      | false =>
        -- the child waits on the stack of its own body
        refine (shorter next later child (top :: below)).trans ?_
        change (body (below.length + 1 + 1) child.tag next >>= _) =
          ((body (below.length + 1 + 1) child.tag next >>= _) >>= _) >>= _
        cases read : body (below.length + 1 + 1) child.tag next with
        | error err => rfl
        | ok found =>
          obtain ⟨inner, after⟩ := found
          have behind : after.rest.length < c.rest.length :=
            Nat.lt_trans (length_body_lt read) later
          refine (onward behind (child.fill inner).close).trans ?_
          change _ = (body _ _ _ >>= _) >>= _
          rw [bind_assoc]
          rfl

end

/-- To read on inside the innermost open element is to read its body, and then to read on inside the
one around it. -/
theorem inside_eq (c : Cursor) : Unwinds c := by
  induction length : c.rest.length using Nat.strongRecOn generalizing c with
  | _ n ih =>
    have shorter (next : Cursor) (less : next.rest.length < c.rest.length) : Unwinds next :=
      ih _ (length ▸ less) next rfl
    by_cases last : c.isEnd = true
    · intro top below
      rw [inside_last last, body_eq, if_pos last]
      rfl
    · cases mark : ContentMark.of c with
      | closingTag => exact unwinds_closing last mark
      | child => exact unwinds_child last shorter mark
      | _ => exact unwinds_piece last shorter (by rw [mark]; exact ⟨nofun, nofun⟩)

/-- The reader with a stack reads an element as the direct one does. -/
theorem readElement_eq (c : Cursor) : readElement c = element 1 c := by
  have room : ¬maxDepth < 1 := by decide
  rw [readElement, element_eq, if_neg room]
  cases startTag c with
  | error err => rfl
  | ok tag =>
    obtain ⟨⟨root, empty⟩, next⟩ := tag
    cases empty with
    | true => rfl
    | false => exact inside_eq next root []

end ScoreScript.Markup
