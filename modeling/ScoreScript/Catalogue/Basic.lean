import ScoreScript.Assoc
import ScoreScript.Error
import ScoreScript.Value.Basic

/-!
Catalogues of element types, ready for use: whatever a type takes from its bases is in its own
tables, and whatever it refers to is a number.
-/

namespace ScoreScript

/-- What giving a value to a field does to an element. -/
inductive Field where
  /-- Set the attribute of this name, which the namespace has been put before. -/
  | attr (name : String) (ns : Option String)
  /-- Add a child of this type. -/
  | child (type : TypeId)
  /-- Set the text. -/
  | text
  deriving DecidableEq, Repr

structure ElementType where
  name : String
  tag : String
  /-- The fields in the order of positional arguments. -/
  fields : Assoc Field
  /-- The tags of children in the order that documents have them in. -/
  order : List String
  /-- The types that are known by a name only inside elements of this type. -/
  scope : Assoc TypeId
  base : Option TypeId
  isAbstract : Bool
  deriving Repr

namespace ElementType

def field? (t : ElementType) (name : String) : Option Field :=
  t.fields.get? name

theorem field?_first {t : ElementType} {name : String} {field : Field} {more : Assoc Field}
    (fields : t.fields = (name, field) :: more) : t.field? name = some field := by
  rw [field?, fields, Assoc.get?, List.lookup_cons_self]

/-- The field that the positional argument with this number is for. -/
def positional? (t : ElementType) (index : Nat) : Option (String × Field) :=
  t.fields[index]?

/-- The fields that hold children, with their types. -/
def childSlots (t : ElementType) : List (String × TypeId) :=
  t.fields.filterMap fun (name, field) =>
    match field with
    | .child type => some (name, type)
    | _ => none

def orderOf? (t : ElementType) (tag : String) : Option Nat :=
  t.order.idxOf? tag

end ElementType

/-- All element types by number, those that any script knows by name, and the lines that stand
before documents. -/
structure Catalogue where
  types : Array ElementType
  globals : Assoc TypeId
  declaration : String
  doctypes : Assoc String
  deriving Inhabited

namespace Catalogue

def get? (c : Catalogue) (id : TypeId) : Option ElementType :=
  c.types[id.index]?

/-- The type with a number that should be one of this catalogue. -/
def element (c : Catalogue) (id : TypeId) : Except Error ElementType :=
  match c.get? id with
  | some type => .ok type
  | none => .error (.bare (.schema (.malformed s!"unknown type id {id.index}")))

def global? (c : Catalogue) (name : String) : Option TypeId :=
  c.globals.get? name

def size (c : Catalogue) : Nat :=
  c.types.size

/-- The document type line for a root with this tag. -/
def doctype? (c : Catalogue) (tag : String) : Option String :=
  c.doctypes.get? tag

/-- The lines before a document whose root has this tag. -/
def header (c : Catalogue) (tag : String) : String :=
  (if c.declaration.isEmpty then "" else c.declaration ++ "\n") ++
    (match c.doctype? tag with
      | some doctype => doctype ++ "\n"
      | none => "")

end Catalogue

end ScoreScript
