import ScoreScript.Catalogue.Declaration
import ScoreScript.Schema.Rule

/-!
Schemas from data files. A file may name simple types and groups of attributes and refer to
them; a simple type refers only to those before it. A rule that refers to a type takes it over
but for what it states itself, and an attribute that is declared again replaces the former
rule without changing its place.
-/

namespace ScoreScript

/-- The simple types and attribute groups that have been read. -/
structure SchemaNames where
  types : Assoc ValueRule
  groups : Assoc (Assoc AttributeRule)

namespace SchemaNames

def empty : SchemaNames := ⟨[], []⟩

/-- The simple type with a name; `what` refers to it. -/
def simpleType (names : SchemaNames) (what name : String) : Except Error ValueRule :=
  match names.types.get? name with
  | some rule => .ok rule
  | none => malformed s!"{what} refers to unknown simple type {quoted name}"

/-- The type that a rule starts from. -/
def baseRule (names : SchemaNames) (what : String) : Option Json → Except Error ValueRule
  | none => .ok {}
  | some (.string name) => names.simpleType what name
  | some _ => malformed s!"{what}.type must be a string"

def readKind (what : String) : Json → Except Error ValueKind
  | .string "string" => .ok .string
  | .string "integer" => .ok .integer
  | .string "decimal" => .ok .decimal
  | _ => malformed s!"{what}.kind is not a known value kind"

def readBound (what key : String) : Json → Except Error Float
  | .number x => .ok x
  | _ => malformed s!"{what}.{key} must be a number"

/-- A rule for values: the name of a simple type, or an object. -/
def valueRule (names : SchemaNames) (what : String) : Json → Except Error ValueRule
  | .string name => names.simpleType what name
  | v => do
    let entries ← v.toObject what
    Json.checkKeys ["type", "kind", "values", "min", "max", "required"] what entries
    let base ← names.baseRule what (entries.get? "type")
    let kind ← (entries.get? "kind").mapM (readKind what)
    let values ← (entries.get? "values").mapM
      (Json.toStrings s!"{what}.values must be an array" s!"{what}.values must contain strings")
    let min ← (entries.get? "min").mapM (readBound what "min")
    let max ← (entries.get? "max").mapM (readBound what "max")
    return ⟨kind.getD base.kind, values.getD base.values, min.or base.min, max.or base.max⟩

def readRequired (what : String) : Option Json → Except Error Bool
  | none => .ok false
  | some (.bool b) => .ok b
  | some _ => malformed s!"{what}.required must be a boolean"

/-- A table of attributes. -/
def attributes (names : SchemaNames) (what : String) (v : Json) :
    Except Error (Assoc AttributeRule) := do
  let entries ← v.toObject what
  entries.mapM fun (name, body) => do
    let context := s!"{what}.{name}"
    let required ← readRequired context (body.get? "required")
    return (name, ⟨required, ← names.valueRule context body⟩)

/-- The attributes of a group that an element refers to. -/
def group (names : SchemaNames) (tag : String) (v : Json) : Except Error (Assoc AttributeRule) :=
  match v.asString?.bind names.groups.get? with
  | some attributes => .ok attributes
  | none => malformed s!"{tag} refers to an unknown attribute group"

/-- The attributes of all groups that an element refers to, in turn. -/
def groupAttributes (names : SchemaNames) (tag : String) :
    Option Json → Except Error (List (Assoc AttributeRule))
  | none => .ok []
  | some (.array items) => items.mapM (names.group tag)
  | some _ => malformed s!"{tag}.attribute_groups must be an array"

/-- A count of occurrences. -/
def count (tag : String) (v : Json) : Except Error Nat :=
  match v.asNumber? with
  | some x =>
    if x.floor == x && 0.0 ≤ x && x ≤ 4294967295.0 then .ok x.toUInt64.toNat
    else malformed s!"{tag} must be a whole number"
  | none => malformed s!"{tag} must be a whole number"

def readTerm (tag : String) : Option Json → Option Json → Except Error Term
  | some (.string name), none => .ok (.element name)
  | some _, none => malformed s!"{tag}: particle element must be a string"
  | none, some choice => do
    let tags ← choice.toStrings s!"{tag}: choice must be an array"
      s!"{tag}: choice must contain strings"
    return .choice tags
  | _, _ => malformed s!"{tag}: particle needs exactly one of element or choice"

def readMax (tag : String) : Option Json → Except Error (Option Nat)
  | none => .ok (some 1)
  | some (.string "unbounded") => .ok none
  | some v => some <$> count tag v

def particle (tag : String) (v : Json) : Except Error Particle := do
  let entries ← v.toObject tag
  Json.checkKeys ["element", "choice", "min", "max"] tag entries
  let term ← readTerm tag (entries.get? "element") (entries.get? "choice")
  let min ← (entries.get? "min").mapM (count tag)
  let max ← readMax tag (entries.get? "max")
  let least := min.getD 1
  if max.any (· < least) then malformed s!"{tag}: particle max is below min"
  else return ⟨term, least, max⟩

def sequence (tag : String) (v : Json) : Except Error (List Particle) :=
  match v.asArray? with
  | some items => items.mapM (particle tag)
  | none => malformed s!"{tag}.sequence must be an array"

/-- What stands inside an element: a sequence, or a text, or nothing. -/
def content (names : SchemaNames) (tag : String) : Option Json → Option Json →
    Except Error Content
  | some _, some _ => malformed s!"{tag} declares both text and a sequence"
  | some steps, none => .sequence <$> sequence tag steps
  | none, some text => .text <$> names.valueRule s!"{tag}.text" text
  | none, none => .ok .empty

def element (names : SchemaNames) (tag : String) (v : Json) : Except Error ElementRule := do
  let entries ← v.toObject tag
  Json.checkKeys ["attributes", "attribute_groups", "sequence", "text"] tag entries
  let groups ← names.groupAttributes tag (entries.get? "attribute_groups")
  let own ← (entries.get? "attributes").mapM (names.attributes s!"{tag}.attributes")
  let content ← names.content tag (entries.get? "sequence") (entries.get? "text")
  return ⟨(groups ++ own.toList).foldl Assoc.putAll [], content⟩

/-- Read simple types, each of which may refer to those before it. -/
def addType (names : SchemaNames) (entry : String × Json) : Except Error SchemaNames := do
  let rule ← names.valueRule entry.1 entry.2
  return { names with types := names.types.put entry.1 rule }

def addGroup (names : SchemaNames) (entry : String × Json) : Except Error SchemaNames := do
  let attributes ← names.attributes entry.1 entry.2
  return { names with groups := names.groups.put entry.1 attributes }

end SchemaNames

namespace Schema

/-- The entries under a key of the file, which may lack it. -/
def section? (root : Assoc Json) (key : String) : Except Error (Assoc Json) :=
  match root.get? key with
  | some v => v.toObject key
  | none => .ok []

def stringAt (root : Assoc Json) (key : String) : String :=
  ((root.get? key).bind Json.asString?).getD ""

def ofJson (v : Json) : Except Error Schema := do
  let root ← v.toObject "master schema"
  let names ← (← section? root "simple_types").foldlM SchemaNames.addType .empty
  let names ← (← section? root "attribute_groups").foldlM SchemaNames.addGroup names
  match root.get? "elements" with
  | none => malformed "missing \"elements\" object"
  | some declared =>
    let entries ← declared.toObject "elements"
    let elements ← entries.mapM fun (tag, body) => do return (tag, ← names.element tag body)
    return ⟨stringAt root "format", stringAt root "version", elements⟩

/-- The schema of a data file. -/
def ofText (text : String) : Except Error Schema := do
  ofJson (← Json.ofText text)

end Schema

end ScoreScript
