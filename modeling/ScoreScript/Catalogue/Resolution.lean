import ScoreScript.Catalogue.Basic
import ScoreScript.Catalogue.Declaration
import ScoreScript.Naming
import ScoreScript.Text.Letter

/-!
From declarations to a catalogue. Types are numbered as they are written, each before those
nested in it. A base is looked for among the types nested in the enclosing types, innermost
first, and then among the outermost ones; from the bases of a type, their bases and so on, it
takes the nearest list of fields, the nearest order, and all nested types that are not hidden
by a nearer one of the same name.
-/

namespace ScoreScript

mutual

/-- How many types a declaration makes, itself included. -/
def TypeDecl.count : TypeDecl → Nat
  | ⟨_, _, _, nested, _, _⟩ => countAll nested + 1

def countAll : List (String × TypeDecl) → Nat
  | [] => 0
  | (_, type) :: rest => type.count + countAll rest

end

/-- The numbers of declarations in a row, from `next` on. -/
def numbers (next : Nat) : List (String × TypeDecl) → Assoc Nat
  | [] => []
  | (name, type) :: rest => (name, next) :: numbers (next + type.count) rest

/-- A declaration that has a number: its nested types are numbers, and it knows what is nested
in the types around it, innermost first. -/
structure NumberedType where
  name : String
  fields : Option (List String)
  namespaces : Assoc String
  order : Option (List String)
  nested : Assoc Nat
  base : Option String
  isAbstract : Bool
  around : List (Assoc Nat)
  deriving Repr

mutual

/-- A declaration and those nested in it, in the order of their numbers; its own is `index`. -/
def TypeDecl.numbered (around : List (Assoc Nat)) (name : String) (index : Nat) :
    TypeDecl → List NumberedType
  | ⟨fields, namespaces, order, nested, base, isAbstract⟩ =>
    let inside := numbers (index + 1) nested
    ⟨name, fields, namespaces, order, inside, base, isAbstract, around⟩ ::
      numberedAll (inside :: around) (index + 1) nested

def numberedAll (around : List (Assoc Nat)) (next : Nat) :
    List (String × TypeDecl) → List NumberedType
  | [] => []
  | (name, type) :: rest =>
    type.numbered around name next ++ numberedAll around (next + type.count) rest

end

namespace NumberedType

/-- The type that a base names; a type does not see itself. -/
def resolveBase? (t : NumberedType) (globals : Assoc Nat) (index : Nat) (base : String) :
    Option Nat :=
  (t.around ++ [globals]).findSome? fun names =>
    (names.get? base).filter (· ≠ index)

/-- The number of the base, if there is one. -/
def baseIndex (t : NumberedType) (globals : Assoc Nat) (index : Nat) :
    Except Error (Option Nat) :=
  match t.base with
  | none => .ok none
  | some base =>
    match t.resolveBase? globals index base with
    | some found => .ok (some found)
    | none => .error (.bare (.schema (.unknownBase t.name base)))

end NumberedType

/-- A type's number, that of its base, and so on, unless they go round in a circle. `before`
are the numbers passed already, and `room` is how many can still come. -/
def baseChain? (bases : Array (Option Nat)) (before : List Nat) :
    (room index : Nat) → Option (List Nat)
  | 0, _ => none
  | room + 1, index =>
    match bases[index]?.join with
    | none => some [index]
    | some next =>
      if (index :: before).contains next then none
      else (baseChain? bases (index :: before) room next).map (index :: ·)

/-- The field that holds the text. -/
def textField : String := "content"

/-- Whether a field of this name is an attribute. -/
def isAttributeName (name : String) : Bool :=
  match name.toList with
  | [] => false
  | first :: _ => isLower first

/-- What resolution has to look names up in. -/
structure Resolver where
  types : Array NumberedType
  bases : Array (Option Nat)
  /-- The outermost types that elements can be made of. -/
  globals : Assoc Nat

namespace Resolver

/-- A type followed by its bases. -/
def chain (r : Resolver) (t : NumberedType) (index : Nat) : Except Error (List NumberedType) :=
  match baseChain? r.bases [] (r.types.size + 1) index with
  | some indices => .ok (indices.filterMap (r.types[·]?))
  | none => .error (.bare (.schema (.cyclicBase t.name)))

/-- The nested types of a type and its bases, nearer ones first. -/
def scope (chain : List NumberedType) : Assoc TypeId :=
  (chain.flatMap (·.nested)).foldl
    (fun table (name, index) =>
      if table.contains name then table else table ++ [(name, ⟨index⟩)]) []

def field (r : Resolver) (t : NumberedType) (chain : List NumberedType)
    (scope : Assoc TypeId) (name : String) : Except Error Field :=
  if name = textField then .ok .text
  else if isAttributeName name then
    let ns := chain.findSome? fun t => t.namespaces.get? name
    .ok (.attr (Naming.attributeName name ns) ns)
  else
    match (scope.get? name).or ((r.globals.get? name).map TypeId.mk) with
    | some type => .ok (.child type)
    | none => .error (.bare (.schema (.unresolvedType t.name name)))

/-- The type with a number, complete. -/
def elementType (r : Resolver) (t : NumberedType) (index : Nat) : Except Error ElementType := do
  let chain ← r.chain t index
  let scope := scope chain
  let names := (chain.findSome? (·.fields)).getD []
  let fields ← names.mapM fun name => do return (name, ← r.field t chain scope name)
  return {
    name := t.name
    tag := Naming.tagName t.name
    fields := Assoc.putAll [] fields
    order := (chain.findSome? (·.order)).getD []
    scope
    base := (r.bases[index]?.join).map TypeId.mk
    isAbstract := t.isAbstract }

end Resolver

namespace Catalogue

/-- The catalogue of some declarations. -/
def ofDecl (d : CatalogueDecl) : Except Error Catalogue := do
  let outermost := numbers 0 d.types
  let types := numberedAll [] 0 d.types
  let bases ← types.zipIdx.mapM fun (type, index) => type.baseIndex outermost index
  let globals := outermost.filter fun (_, index) =>
    match types[index]? with
    | some type => !type.isAbstract
    | none => false
  let r : Resolver := ⟨types.toArray, bases.toArray, globals⟩
  let complete ← types.zipIdx.mapM fun (type, index) => r.elementType type index
  return ⟨complete.toArray, globals.map fun (name, index) => (name, ⟨index⟩), d.declaration,
    d.doctypes⟩

/-- The catalogue of a data file. -/
def ofText (text : String) : Except Error Catalogue := do
  let root ← Json.ofText text
  ofDecl (← CatalogueDecl.ofJson root)

end Catalogue

end ScoreScript
