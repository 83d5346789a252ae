import ScoreScript.Catalogue.Declaration
import ScoreScript.Proofs.Assoc
import ScoreScript.Proofs.Stateful

/-!
Formats of data files. A format says which keys an object has at each of its places, and of what
type the values are. A reader may leave some entries out of account (`leaves`); if it refuses
whatever else breaks the format, then what it accepts keeps to the format just if those entries do
(`IsStrict.of_checked`). The formats of schemas and of catalogues are given here, with what their
readers leave out, and the checks that they share.
-/

namespace ScoreScript

/-! ### Types of values -/

namespace Json

def isString (v : Json) : Bool :=
  v.asString?.isSome

def isNumber (v : Json) : Bool :=
  v.asNumber?.isSome

def isBool (v : Json) : Bool :=
  v.asBool?.isSome

def isArray (v : Json) : Bool :=
  v.asArray?.isSome

def isObject (v : Json) : Bool :=
  v.asObject?.isSome

/-- An array of strings. -/
def isStrings (v : Json) : Bool :=
  v.asArray?.any (·.all isString)

/-- An object with values of one type under names of any kind. -/
def isTableOf (type : Json → Bool) (v : Json) : Bool :=
  v.asObject?.any (·.all fun entry => type entry.2)

/-- One of these words. -/
def isWord (words : List String) (v : Json) : Bool :=
  v.asString?.any words.contains

theorem isStrings_map (texts : List String) : isStrings (.array (texts.map .string)) = true := by
  refine List.all_eq_true.2 fun item member => ?_
  obtain ⟨text, -, rfl⟩ := List.mem_map.1 member
  rfl

end Json

/-! ### Formats -/

/-- A format of data files, whose objects stand at certain places. -/
structure DataFormat (Place : Type) where
  /-- What an object at a place has: keys, with the types of the values. -/
  keys : Place → Assoc (Json → Bool)
  /-- A name may stand there for an object. -/
  isNamed : Place → Bool
  /-- The values of a file and where they stand. -/
  Holds : Json → Place → Json → Prop

namespace DataFormat

variable {Place : Type} (f : DataFormat Place) (leaves : Place → String × Json → Bool)

/-- The key is one of this place, and the value is of its type. -/
def documents (p : Place) (entry : String × Json) : Bool :=
  ((f.keys p).get? entry.1).any (· entry.2)

/-- The value is what may stand at this place, but for entries that are left out of account. -/
def FitsAt (p : Place) (v : Json) : Prop :=
  f.isNamed p = true ∧ v.isString = true ∨
    ∃ entries, v = .object entries ∧
      ∀ entry ∈ entries, f.documents p entry = true ∨ leaves p entry = true

/-- The file keeps to the format at every level, but for entries that are left out of account. -/
def Fits (root : Json) : Prop :=
  ∀ p v, f.Holds root p v → f.FitsAt leaves p v

/-- The file keeps to the format at every level. -/
def IsKept (root : Json) : Prop :=
  f.Fits (fun _ _ => false) root

/-- The entries that are left out of account are as documented all the same. -/
def IsCareful (root : Json) : Prop :=
  ∀ p entries, f.Holds root p (.object entries) →
    ∀ entry ∈ entries, leaves p entry = true → f.documents p entry = true

variable {f leaves}

theorem isKept_iff {root : Json} : f.IsKept root ↔ f.Fits leaves root ∧ f.IsCareful leaves root := by
  constructor
  · intro kept
    refine ⟨fun p v holds => (kept p v holds).imp_right ?_, fun p entries holds entry member _ => ?_⟩
    · rintro ⟨entries, rfl, each⟩
      exact ⟨entries, rfl, fun entry member => .inl ((each entry member).resolve_right nofun)⟩
    · rcases kept p _ holds with ⟨-, word⟩ | ⟨_, same, each⟩
      · cases word
      · cases same
        exact (each entry member).resolve_right nofun
  · rintro ⟨fits, careful⟩ p v holds
    refine (fits p v holds).imp_right ?_
    rintro ⟨entries, rfl, each⟩
    refine ⟨entries, rfl, fun entry member => .inl ?_⟩
    exact (each entry member).elim id (careful p entries holds entry member)

theorem not_isKept {root v w : Json} {p : Place} {key : String} (holds : f.Holds root p v)
    (there : v.get? key = some w) (other : f.documents p (key, w) = false) : ¬f.IsKept root := by
  intro kept
  obtain ⟨entries, object, found⟩ := Option.bind_eq_some_iff.1 there
  cases v <;> cases object
  rcases kept p _ holds with ⟨-, word⟩ | ⟨_, same, each⟩
  · cases word
  · cases same
    rcases each (key, w) (Assoc.mem_of_get? found) with here | left
    · cases other.symm.trans here
    · cases left

end DataFormat

/-- The result is good, or else the data file is refused. -/
abbrev Checked {α : Type} (good : α → Prop) (result : Except Error α) : Prop :=
  Returns good (fun e => ∃ cause, e = .bare (.schema cause)) result

/-- What is made of a value that stands in a data file of a format, where some entries are left out
of account. -/
structure IsStrict {Place α : Type} (f : DataFormat Place) (leaves : Place → String × Json → Bool)
    (root : Json) (result : Except Error α) : Prop where
  /-- Nothing else is accepted. -/
  fits : ∀ a, result = .ok a → f.Fits leaves root
  /-- What is accepted keeps to the format just if it does so where nobody looks. -/
  kept_iff : ∀ a, result = .ok a → (f.IsKept root ↔ f.IsCareful leaves root)
  /-- A file that breaks the format where somebody looks is refused. -/
  refused : ¬f.Fits leaves root → ∃ cause, result = .error (.bare (.schema cause))
  /-- A file that breaks the format is refused, unless it does so where nobody looks. -/
  refused_of_careful : f.IsCareful leaves root → ¬f.IsKept root →
    ∃ cause, result = .error (.bare (.schema cause))
  failure : ∀ e, result = .error e → ∃ cause, e = .bare (.schema cause)

theorem IsStrict.of_checked {Place α : Type} {f : DataFormat Place}
    {leaves : Place → String × Json → Bool} {root : Json} {result : Except Error α}
    (h : Checked (fun _ => f.Fits leaves root) result) : IsStrict f leaves root result := by
  have refused (broken : ¬f.Fits leaves root) :
      ∃ cause, result = .error (.bare (.schema cause)) := by
    cases result with
    | ok a => exact absurd h broken
    | error e =>
      obtain ⟨cause, rfl⟩ := h
      exact ⟨cause, rfl⟩
  refine ⟨fun _ done => h.of_ok done, fun _ done => ?_, refused, fun careful broken => refused ?_,
    fun _ failed => h.of_error failed⟩
  · rw [DataFormat.isKept_iff, and_iff_right (h.of_ok done)]
  · exact fun fits => broken (DataFormat.isKept_iff.2 ⟨fits, careful⟩)

/-! ### Checks -/

section

variable {v : Json} {entries : Assoc Json}

theorem checked_malformed {α : Type} {good : α → Prop} {detail : String} :
    Checked good (malformed detail : Except Error α) :=
  ⟨_, rfl⟩

theorem toObject_checked {what : String} :
    Checked (fun entries => v = .object entries) (v.toObject what) := by
  unfold Json.toObject
  cases v with
  | object entries => exact rfl
  | _ => exact checked_malformed

theorem toStrings_checked {noArray noString : String} :
    Checked (fun texts => v = .array (texts.map .string)) (v.toStrings noArray noString) := by
  unfold Json.toStrings
  cases v with
  | array items =>
    refine (Returns.mapM (R := fun item text => item = .string text) fun item _ => ?_).mono
      fun texts all => congrArg Json.array ?_
    · cases item with
      | string text => exact rfl
      | _ => exact checked_malformed
    · rwa [← List.forall₂_eq_eq_eq, List.forall₂_map_right_iff]
  | _ => exact checked_malformed

theorem checkKeys_checked {allowed : List String} {what : String} :
    Checked (fun _ => ∀ entry ∈ entries, entry.1 ∈ allowed)
      (Json.checkKeys allowed what entries) := by
  unfold Json.checkKeys
  split
  · exact checked_malformed
  · rename_i none
    intro entry member
    have known := List.find?_eq_none.1 none entry.1 (List.mem_map_of_mem member)
    simpa using known

/-- Where only these keys occur, what holds under each of them holds of every entry. -/
theorem forall_of_keys {P : String × Json → Prop} {allowed : List String}
    (distinct : (Assoc.keys entries).Nodup) (known : ∀ entry ∈ entries, entry.1 ∈ allowed)
    (each : ∀ key ∈ allowed, ∀ v, entries.get? key = some v → P (key, v)) :
    ∀ entry ∈ entries, P entry := fun entry member =>
  each entry.1 (known entry member) entry.2 ((Assoc.get?_eq_some_iff distinct).2 member)

end

/-! ### The formats of schemas and catalogues -/

/-- Where the objects of a schema stand. -/
inductive SchemaPlace where
  | file
  | simpleType
  | attributeRule
  | textRule
  | element
  | particle

namespace SchemaPlace

/-- What a rule for values has. -/
def ruleKeys : Assoc (Json → Bool) :=
  [("type", Json.isString), ("kind", Json.isWord ["string", "integer", "decimal"]),
    ("values", Json.isStrings), ("min", Json.isNumber), ("max", Json.isNumber)]

def keys : SchemaPlace → Assoc (Json → Bool)
  | file =>
    [("format", Json.isString), ("version", Json.isString), ("simple_types", Json.isObject),
      ("attribute_groups", Json.isTableOf Json.isObject), ("elements", Json.isObject)]
  | simpleType | textRule => ruleKeys
  | attributeRule => ruleKeys ++ [("required", Json.isBool)]
  | element =>
    [("attributes", Json.isObject), ("attribute_groups", Json.isStrings),
      ("sequence", Json.isArray), ("text", fun v => v.isString || v.isObject)]
  | particle =>
    [("element", Json.isString), ("choice", Json.isStrings), ("min", Json.isNumber),
      ("max", fun v => v.isNumber || v.isWord ["unbounded"])]

def isNamed : SchemaPlace → Bool
  | simpleType | attributeRule | textRule => true
  | file | element | particle => false

/-- The values of a schema and where they stand. -/
inductive Holds (root : Json) : SchemaPlace → Json → Prop where
  | file : Holds root .file root
  | simpleType {types : Assoc Json} {entry : String × Json}
    (there : root.get? "simple_types" = some (.object types)) (member : entry ∈ types) :
    Holds root .simpleType entry.2
  | grouped {groups group : Assoc Json} {name : String} {entry : String × Json}
    (there : root.get? "attribute_groups" = some (.object groups))
    (member : (name, .object group) ∈ groups) (inner : entry ∈ group) :
    Holds root .attributeRule entry.2
  | element {elements : Assoc Json} {entry : String × Json}
    (there : root.get? "elements" = some (.object elements)) (member : entry ∈ elements) :
    Holds root .element entry.2
  | own {v : Json} {own : Assoc Json} {entry : String × Json} (holds : Holds root .element v)
    (there : v.get? "attributes" = some (.object own)) (member : entry ∈ own) :
    Holds root .attributeRule entry.2
  | text {v rule : Json} (holds : Holds root .element v) (there : v.get? "text" = some rule) :
    Holds root .textRule rule
  | particle {v step : Json} {steps : List Json} (holds : Holds root .element v)
    (there : v.get? "sequence" = some (.array steps)) (member : step ∈ steps) :
    Holds root .particle step

/-- The format of schemas. -/
def format : DataFormat SchemaPlace :=
  ⟨keys, isNamed, Holds⟩

/-- What the reader of schemas leaves out of account. -/
def leaves : SchemaPlace → String × Json → Bool
  | file, entry => !(["simple_types", "attribute_groups", "elements"].contains entry.1)
  | simpleType, entry | textRule, entry => entry.1 == "required"
  | attributeRule, _ | element, _ | particle, _ => false

/-- What the reader of schemas takes at a place. -/
abbrev Takes (p : SchemaPlace) (v : Json) : Prop :=
  format.FitsAt leaves p v

end SchemaPlace

/-- Where the objects of a catalogue stand. -/
inductive CataloguePlace where
  | file
  | type

namespace CataloguePlace

def keys : CataloguePlace → Assoc (Json → Bool)
  | file =>
    [("declaration", Json.isString), ("doctypes", Json.isTableOf Json.isString),
      ("types", Json.isObject)]
  | type =>
    [("fields", Json.isStrings), ("namespaces", Json.isTableOf Json.isString),
      ("order", Json.isStrings), ("nested", Json.isObject), ("base", Json.isString),
      ("abstract", Json.isBool)]

/-- The values of a catalogue and where they stand; types stand in types to any depth. -/
inductive Holds (root : Json) : CataloguePlace → Json → Prop where
  | file : Holds root .file root
  | type {types : Assoc Json} {entry : String × Json}
    (there : root.get? "types" = some (.object types)) (member : entry ∈ types) :
    Holds root .type entry.2
  | nested {v : Json} {types : Assoc Json} {entry : String × Json} (holds : Holds root .type v)
    (there : v.get? "nested" = some (.object types)) (member : entry ∈ types) :
    Holds root .type entry.2

/-- The format of catalogues. -/
def format : DataFormat CataloguePlace :=
  ⟨keys, fun _ => false, Holds⟩

/-- What the reader of catalogues leaves out of account. -/
def leaves : CataloguePlace → String × Json → Bool
  | file, entry => entry.1 != "types" && !(entry.1 == "doctypes" && entry.2.isObject)
  | type, entry => entry.1 == "abstract"

end CataloguePlace

end ScoreScript
