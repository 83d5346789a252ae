import ScoreScript.Schema.Validation

/-!
Elements with a number. Two elements of a document may look alike, and the place of one changes
while others come in before it; so each construction gets a serial number, which the element
keeps. A piece is an element with that number. Forgetting the numbers gives the element back,
and whatever is done to a piece is done to its element.
-/

namespace ScoreScript

structure Piece where
  serial : Nat
  tag : String
  attributes : Assoc String := []
  children : List Piece := []
  text : Option String := none
  checked : Bool := false
  settled : Bool := false
  deriving Inhabited

namespace Piece

mutual

/-- A property of pieces that passes from the children to the piece holds of all pieces. -/
theorem induction {P : Piece → Prop} (step : ∀ p : Piece, (∀ c ∈ p.children, P c) → P p) :
    ∀ p, P p
  | ⟨serial, tag, attributes, children, text, checked, settled⟩ =>
    step ⟨serial, tag, attributes, children, text, checked, settled⟩ (inductionAll step children)

theorem inductionAll {P : Piece → Prop} (step : ∀ p : Piece, (∀ c ∈ p.children, P c) → P p) :
    ∀ children : List Piece, ∀ c ∈ children, P c
  | [] => fun _ member => nomatch member
  | first :: rest => List.forall_mem_cons.2 ⟨induction step first, inductionAll step rest⟩

end

/-! ### The element of a piece -/

mutual

/-- The element without its number and those of the elements in it. -/
def element : Piece → Element
  | ⟨_, tag, attributes, children, text, checked, settled⟩ =>
    ⟨tag, attributes, elements children, text, checked, settled⟩

def elements : List Piece → List Element
  | [] => []
  | p :: rest => p.element :: elements rest

end

theorem elements_eq_map (children : List Piece) : elements children = children.map element := by
  induction children with
  | nil => rfl
  | cons p rest ih => rw [elements, ih, List.map_cons]

theorem element_eq (p : Piece) :
    p.element = ⟨p.tag, p.attributes, p.children.map element, p.text, p.checked, p.settled⟩ := by
  obtain ⟨serial, tag, attributes, children, text, checked, settled⟩ := p
  rw [element, elements_eq_map]

@[simp] theorem element_tag (p : Piece) : p.element.tag = p.tag := by
  rw [element_eq]

@[simp] theorem element_attributes (p : Piece) : p.element.attributes = p.attributes := by
  rw [element_eq]

@[simp] theorem element_text (p : Piece) : p.element.text = p.text := by
  rw [element_eq]

@[simp] theorem element_checked (p : Piece) : p.element.checked = p.checked := by
  rw [element_eq]

@[simp] theorem element_settled (p : Piece) : p.element.settled = p.settled := by
  rw [element_eq]

@[simp] theorem element_children (p : Piece) : p.element.children = p.children.map element := by
  rw [element_eq]

theorem element_children_tags (p : Piece) :
    p.element.children.map (·.tag) = p.children.map (·.tag) := by
  rw [element_children, List.map_map]
  exact List.map_congr_left fun c _ => c.element_tag

/-! ### What is done to pieces -/

/-- A new piece: a tag and nothing else. -/
def empty (serial : Nat) (tag : String) : Piece :=
  { serial, tag }

def setAttribute (p : Piece) (name value : String) : Piece :=
  { p with attributes := p.attributes.put name value, checked := false }

def setText (p : Piece) (text : String) : Piece :=
  { p with text := some text, checked := false }

def addChild (p child : Piece) : Piece :=
  { p with children := p.children ++ [child], checked := false }

def inOrder (order : List String) (children : List Piece) : Bool :=
  Element.inOrder order (children.map element)

def sortChildren (order : List String) (p : Piece) : Piece :=
  if inOrder order p.children then p
  else
    { p with
      children := p.children.mergeSort fun a b =>
        Element.rank order a.tag ≤ Element.rank order b.tag
      checked := false }

/-- Add a child where it belongs. -/
def adopt (p : Piece) (order : List String) (child : Piece) : Piece :=
  (p.addChild child).sortChildren order

mutual

/-- Remember a check, as far down as one goes. -/
def examine (mode : Mode) : Piece → Piece
  | ⟨serial, tag, attributes, children, text, checked, settled⟩ =>
    if settled then ⟨serial, tag, attributes, children, text, checked, settled⟩
    else ⟨serial, tag, attributes, examineAll mode children, text, true, mode == .strict⟩

def examineAll (mode : Mode) : List Piece → List Piece
  | [] => []
  | p :: rest => p.examine mode :: examineAll mode rest

end

theorem examineAll_eq_map (mode : Mode) (children : List Piece) :
    examineAll mode children = children.map (examine mode) := by
  induction children with
  | nil => rfl
  | cons p rest ih => rw [examineAll, ih, List.map_cons]

theorem examine_of_settled {p : Piece} (mode : Mode) (settled : p.settled = true) :
    p.examine mode = p := by
  obtain ⟨serial, tag, attributes, children, text, checked, settled'⟩ := p
  subst settled
  rw [examine, if_pos rfl]

theorem examine_of_open {p : Piece} (mode : Mode) (unsettled : p.settled = false) :
    p.examine mode =
      { p with
        children := p.children.map (examine mode)
        checked := true
        settled := mode == .strict } := by
  obtain ⟨serial, tag, attributes, children, text, checked, settled'⟩ := p
  subst unsettled
  rw [examine, if_neg Bool.false_ne_true, examineAll_eq_map]

@[simp] theorem examine_serial (mode : Mode) (p : Piece) : (p.examine mode).serial = p.serial := by
  cases h : p.settled
  · rw [examine_of_open mode h]
  · rw [examine_of_settled mode h]

@[simp] theorem examine_tag (mode : Mode) (p : Piece) : (p.examine mode).tag = p.tag := by
  cases h : p.settled
  · rw [examine_of_open mode h]
  · rw [examine_of_settled mode h]

@[simp] theorem examine_attributes (mode : Mode) (p : Piece) :
    (p.examine mode).attributes = p.attributes := by
  cases h : p.settled
  · rw [examine_of_open mode h]
  · rw [examine_of_settled mode h]

@[simp] theorem examine_text (mode : Mode) (p : Piece) : (p.examine mode).text = p.text := by
  cases h : p.settled
  · rw [examine_of_open mode h]
  · rw [examine_of_settled mode h]

@[simp] theorem examine_children_tags (mode : Mode) (p : Piece) :
    (p.examine mode).children.map (·.tag) = p.children.map (·.tag) := by
  cases h : p.settled
  · rw [examine_of_open mode h, List.map_map]
    exact List.map_congr_left fun c _ => c.examine_tag mode
  · rw [examine_of_settled mode h]

/-! ### The same is done to the element -/

theorem element_setAttribute (p : Piece) (name value : String) :
    (p.setAttribute name value).element = p.element.setAttribute name value := by
  rw [element_eq, element_eq p]
  rfl

theorem element_setText (p : Piece) (text : String) :
    (p.setText text).element = p.element.setText text := by
  rw [element_eq, element_eq p]
  rfl

theorem element_addChild (p child : Piece) :
    (p.addChild child).element = p.element.addChild child.element := by
  rw [element_eq, element_eq p]
  simp [addChild, Element.addChild]

theorem element_sortChildren (order : List String) (p : Piece) :
    (p.sortChildren order).element = p.element.sortChildren order := by
  unfold sortChildren Element.sortChildren inOrder
  rw [element_children]
  split
  · rfl
  · rw [element_eq, element_eq p]
    have sorted : (p.children.mergeSort fun a b =>
          Element.rank order a.tag ≤ Element.rank order b.tag).map element =
        (p.children.map element).mergeSort fun a b =>
          Element.rank order a.tag ≤ Element.rank order b.tag := by
      apply List.map_mergeSort
      intro a _ b _
      rw [element_tag, element_tag]
    rw [sorted]

theorem element_adopt (p : Piece) (order : List String) (child : Piece) :
    (p.adopt order child).element = (p.element.addChild child.element).sortChildren order := by
  rw [adopt, element_sortChildren, element_addChild]

end Piece

end ScoreScript
