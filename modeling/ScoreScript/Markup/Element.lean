import ScoreScript.Assoc

/-!
Elements of a document: a tag, attributes in order, children, perhaps a text. An element under
construction also remembers how far it has been validated. `checked` says that its own content
was looked at since it last changed, `settled` that its whole subtree was validated for good.
-/

namespace ScoreScript

structure Element where
  tag : String
  attributes : Assoc String := []
  children : List Element := []
  text : Option String := none
  checked : Bool := false
  settled : Bool := false
  deriving Inhabited

namespace Element

/-- An element with a tag and nothing else. -/
def empty (tag : String) : Element :=
  { tag }

def attribute? (e : Element) (name : String) : Option String :=
  e.attributes.get? name

def setAttribute (e : Element) (name value : String) : Element :=
  { e with attributes := e.attributes.put name value, checked := false }

def setText (e : Element) (text : String) : Element :=
  { e with text := some text, checked := false }

def addChild (e child : Element) : Element :=
  { e with children := e.children ++ [child], checked := false }

/-- The first child with a tag. -/
def child? (e : Element) (tag : String) : Option Element :=
  e.children.find? (·.tag == tag)

def childrenNamed (e : Element) (tag : String) : List Element :=
  e.children.filter (·.tag == tag)

mutual

/-- How many elements there are, the element itself included. -/
def size : Element → Nat
  | ⟨_, _, children, _, _, _⟩ => sizes children + 1

def sizes : List Element → Nat
  | [] => 0
  | e :: rest => e.size + sizes rest

end

/-- Attributes are compared as a table, in any order. -/
def sameAttributes (a b : Assoc String) : Bool :=
  a.length == b.length && a.all fun entry => b.get? entry.1 == some entry.2

mutual

/-- Whether two elements are the same but for the order of attributes and for how far they have
been validated. -/
def same : Element → Element → Bool
  | ⟨tag, attributes, children, text, _, _⟩, other =>
    tag == other.tag && sameAttributes attributes other.attributes && text == other.text &&
      sameAll children other.children

def sameAll : List Element → List Element → Bool
  | [], [] => true
  | a :: as, b :: bs => same a b && sameAll as bs
  | _, _ => false

end

/-- The place of a tag in an order; a tag that is not listed comes after all others. -/
def rank (order : List String) (tag : String) : Nat :=
  order.idxOf tag

/-- Whether each rank is followed by one that is no smaller. -/
def inOrder (order : List String) : List Element → Bool
  | a :: b :: rest => rank order a.tag ≤ rank order b.tag && inOrder order (b :: rest)
  | _ => true

/-- Put the children in order, those of equal rank as they were. -/
def sortChildren (order : List String) (e : Element) : Element :=
  if inOrder order e.children then e
  else
    { e with
      children := e.children.mergeSort fun a b => rank order a.tag ≤ rank order b.tag
      checked := false }

end Element

end ScoreScript
