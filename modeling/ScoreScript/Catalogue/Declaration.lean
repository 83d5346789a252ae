import ScoreScript.Json.Value

/-!
Declarations of element types, as a data file gives them. A type lists its fields in the order
of positional arguments, may take what it does not list from a base, and may declare types of
its own that are known only inside its elements.
-/

namespace ScoreScript

structure TypeDecl where
  fields : Option (List String) := none
  namespaces : Assoc String := []
  order : Option (List String) := none
  nested : List (String × TypeDecl) := []
  base : Option String := none
  isAbstract : Bool := false
  deriving Inhabited

/-- What a catalogue is made of: types, and the lines that stand before documents. -/
structure CatalogueDecl where
  declaration : String
  doctypes : Assoc String
  types : List (String × TypeDecl)
  deriving Inhabited

/-- The refusal of a data file. -/
def malformed {α : Type} (detail : String) : Except Error α :=
  .error (.bare (.schema (.malformed detail)))

namespace Json

/-- The entries of an object; `what` names it in messages. -/
def toObject (what : String) (v : Json) : Except Error (Assoc Json) :=
  match v.asObject? with
  | some entries => .ok entries
  | none => malformed s!"{what} must be an object"

/-- The items of an array of strings, given the messages for what is none. -/
def toStrings (noArray noString : String) (v : Json) : Except Error (List String) :=
  match v.asArray? with
  | none => malformed noArray
  | some items =>
    items.mapM fun item =>
      match item.asString? with
      | some text => .ok text
      | none => malformed noString

/-- Refuse an object with other keys than these. -/
def checkKeys (allowed : List String) (what : String) (entries : Assoc Json) :
    Except Error Unit :=
  match entries.keys.find? (!allowed.contains ·) with
  | some key => malformed s!"{what} has unknown key {quoted key}"
  | none => .ok ()

end Json

namespace TypeDecl

def stringList (name key : String) (v : Json) : Except Error (List String) :=
  v.toStrings s!"{name}.{key} must be an array" s!"{name}.{key} must contain strings"

/-- The namespaces of a type's attributes. -/
def readNamespaces (name : String) (v : Json) : Except Error (Assoc String) := do
  let entries ← v.toObject s!"{name}.namespaces"
  entries.mapM fun (field, ns) =>
    match ns.asString? with
    | some ns => .ok (field, ns)
    | none => malformed s!"{name}.namespaces.{field} must be a string"

def readBase (name : String) (v : Json) : Except Error String :=
  match v.asString? with
  | some base => .ok base
  | none => malformed s!"{name}.base must be a string"

/-- A declaration without the types nested in it. -/
def readOuter (name : String) (entries : Assoc Json) : Except Error TypeDecl := do
  Json.checkKeys ["fields", "namespaces", "order", "nested", "base", "abstract"]
    s!"type {name}" entries
  let fields ← (entries.get? "fields").mapM (stringList name "fields")
  let order ← (entries.get? "order").mapM (stringList name "order")
  let namespaces ← (entries.get? "namespaces").mapM (readNamespaces name)
  let base ← (entries.get? "base").mapM (readBase name)
  let isAbstract := ((entries.get? "abstract").bind Json.asBool?).getD false
  return { fields, order, base, isAbstract, namespaces := namespaces.getD [] }

mutual

/-- The declaration of a type by its name. -/
def ofJson (name : String) : Json → Except Error TypeDecl
  | .object entries => do
    let outer ← readOuter name entries
    return { outer with nested := ← readNested name entries }
  | _ => malformed s!"type {name} must be an object"

/-- The types nested in a type, which one of its entries holds. -/
def readNested (name : String) : List (String × Json) → Except Error (List (String × TypeDecl))
  | [] => .ok []
  | ("nested", .object types) :: _ => ofEntries types
  | ("nested", _) :: _ => malformed s!"{name}.nested must be an object"
  | _ :: rest => readNested name rest

def ofEntries : List (String × Json) → Except Error (List (String × TypeDecl))
  | [] => .ok []
  | (name, body) :: rest => do
    let type ← ofJson name body
    return (name, type) :: (← ofEntries rest)

end

end TypeDecl

namespace CatalogueDecl

def readDoctype (entry : String × Json) : Except Error (String × String) :=
  match entry.2.asString? with
  | some doctype => .ok (entry.1, doctype)
  | none => malformed s!"doctype for {entry.1} must be a string"

/-- Read a data file. Of its top level only the types are required. -/
def ofJson (root : Json) : Except Error CatalogueDecl := do
  let declaration := ((root.get? "declaration").bind Json.asString?).getD ""
  let doctypes ← (((root.get? "doctypes").bind Json.asObject?).getD []).mapM readDoctype
  match (root.get? "types").bind Json.asObject? with
  | some types => return ⟨declaration, doctypes, ← TypeDecl.ofEntries types⟩
  | none => malformed "missing \"types\" object"

end CatalogueDecl

end ScoreScript
