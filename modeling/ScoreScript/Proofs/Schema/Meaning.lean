import Mathlib.Data.List.Forall2
import ScoreScript.Proofs.Assoc
import ScoreScript.Proofs.Stateful
import ScoreScript.Schema.Reading

/-!
What the declarations of a schema stand for. A rule for values is written by name, or as an object
that may start from a named rule and state some of its parts; an element takes over groups of
attributes and adds its own. All of that is said here of the data file alone, without the tables
that a reader fills. Main statements: `Schema.Means.unique`, a value stands for one rule only;
`Schema.RefersBack.length_lt`, references come to an end; `Schema.combines_of_putAll`, what tables
come to that are put one after the other.
-/

namespace ScoreScript

/-- The word for a kind of values. -/
def ValueKind.word : ValueKind → String
  | .string => "string"
  | .integer => "integer"
  | .decimal => "decimal"

theorem ValueKind.word_injective : Function.Injective ValueKind.word := by
  intro a b same
  cases a <;> cases b <;> first | rfl | exact absurd same (by decide)

namespace Schema

/-! ### Rules for values -/

/-- What is stated replaces what there was; where nothing is stated, that remains. -/
def Replaces {α : Type} (states : Json → α → Prop) (stated : Option Json) (old new : α) : Prop :=
  match stated with
  | none => new = old
  | some v => states v new

/-- The second rule is the first one with exactly those parts replaced that an object states. -/
structure Overlays (entries : Assoc Json) (old new : ValueRule) : Prop where
  kind : Replaces (fun v kind => v = .string kind.word) (entries.get? "kind") old.kind new.kind
  values : Replaces (fun v values => v = .array (values.map .string)) (entries.get? "values")
    old.values new.values
  min : Replaces (fun v min => ∃ x, v = .number x ∧ min = some x) (entries.get? "min")
    old.min new.min
  max : Replaces (fun v max => ∃ x, v = .number x ∧ max = some x) (entries.get? "max")
    old.max new.max

/-- What a value stands for as a rule, where these simple types are declared. -/
inductive Means (types : Assoc Json) : Json → ValueRule → Prop where
  | named {name : String} {body : Json} {rule : ValueRule}
    (declared : types.get? name = some body) (means : Means types body rule) :
    Means types (.string name) rule
  | plain {entries : Assoc Json} {rule : ValueRule} (noType : entries.get? "type" = none)
    (overlay : Overlays entries {} rule) : Means types (.object entries) rule
  | derived {entries : Assoc Json} {name : String} {base rule : ValueRule}
    (typed : entries.get? "type" = some (.string name)) (start : Means types (.string name) base)
    (overlay : Overlays entries base rule) : Means types (.object entries) rule

/-- The simple type that a value refers to. -/
def reference? : Json → Option String
  | .string name => some name
  | .object entries => (Assoc.get? entries "type").bind Json.asString?
  | _ => none

/-- The first simple type refers to the second. -/
def Refers (types : Assoc Json) (name other : String) : Prop :=
  ∃ body, types.get? name = some body ∧ reference? body = some other

/-- Each simple type refers at most to one that comes before it. -/
def RefersBack (types : Assoc Json) : Prop :=
  ∀ before name body, before ++ [(name, body)] <+: types →
    ∀ other, reference? body = some other → other ∈ Assoc.keys before

/-! ### Attributes -/

/-- What a value stands for as the rule of an attribute. -/
structure MeansAttribute (types : Assoc Json) (v : Json) (rule : AttributeRule) : Prop where
  required : Replaces (fun v b => v = .bool b) (v.get? "required") false rule.required
  value : Means types v rule.value

/-- A table of attributes, with a rule for each declaration in its place. -/
def MeansTable (types declared : Assoc Json) (table : Assoc AttributeRule) : Prop :=
  List.Forall₂ (fun entry entry' => entry.1 = entry'.1 ∧ MeansAttribute types entry.2 entry'.2)
    declared table

/-- What a value stands for as a group of attributes. -/
def MeansGroup (types : Assoc Json) (v : Json) (group : Assoc AttributeRule) : Prop :=
  ∃ declared, v = .object declared ∧ MeansTable types declared group

/-- The declaration that counts for an attribute: that of the element itself, or else that of the
last of the groups that have one. -/
def declaration? (groups : List (Assoc Json)) (own : Assoc Json) (name : String) : Option Json :=
  (own.get? name).or (groups.reverse.findSome? (·.get? name))

/-- What an element takes over from groups, with what it declares itself. -/
structure Combines (types : Assoc Json) (groups : List (Assoc Json)) (own : Assoc Json)
    (attributes : Assoc AttributeRule) : Prop where
  names : attributes.keys = ((groups ++ [own]).flatMap Assoc.keys).eraseDups
  rules : ∀ name,
    Option.Rel (MeansAttribute types) (declaration? groups own name) (attributes.get? name)

/-! ### Contents -/

/-- How often something occurs. -/
def IsCount (v : Json) (n : Nat) : Prop :=
  ∃ x, v = .number x ∧ (x.floor == x) = true ∧ 0.0 ≤ x ∧ x ≤ 4294967295.0 ∧ n = x.toUInt64.toNat

/-- The most often that something may occur. -/
def IsBound (v : Json) (max : Option Nat) : Prop :=
  v = .string "unbounded" ∧ max = none ∨ ∃ n, IsCount v n ∧ max = some n

/-- The tags that a step takes are either one or a choice. -/
inductive MeansTerm : Option Json → Option Json → Term → Prop where
  | element (tag : String) : MeansTerm (some (.string tag)) none (.element tag)
  | choice (tags : List String) : MeansTerm none (some (.array (tags.map .string))) (.choice tags)

structure MeansParticle (v : Json) (p : Particle) : Prop where
  term : MeansTerm (v.get? "element") (v.get? "choice") p.term
  min : Replaces IsCount (v.get? "min") 1 p.min
  max : Replaces IsBound (v.get? "max") (some 1) p.max
  ordered : ∀ max, p.max = some max → p.min ≤ max

/-- There is a sequence or a text or neither. -/
inductive MeansContent (types : Assoc Json) : Option Json → Option Json → Content → Prop where
  | sequence {steps : List Json} {particles : List Particle}
    (each : List.Forall₂ MeansParticle steps particles) :
    MeansContent types (some (.array steps)) none (.sequence particles)
  | text {v : Json} {rule : ValueRule} (means : Means types v rule) :
    MeansContent types none (some v) (.text rule)
  | empty : MeansContent types none none .empty

/-! ### Elements and files -/

/-- What a value stands for as an element, where these simple types and groups are declared. -/
structure MeansElement (types groups : Assoc Json) (v : Json) (rule : ElementRule) : Prop where
  object : ∃ body, v = .object body
  attributes : ∃ listed tables own,
    Replaces (fun v names => v = .array (names.map .string)) (v.get? "attribute_groups") [] listed ∧
    List.Forall₂ (fun name table => groups.get? name = some (.object table)) listed tables ∧
    Replaces (fun v own => v = .object own) (v.get? "attributes") [] own ∧
    Combines types tables own rule.attributes
  content : MeansContent types (v.get? "sequence") (v.get? "text") rule.content

/-- The declarations of a file. -/
structure Declares (root types groups elements : Assoc Json) : Prop where
  types : Replaces (fun v types => v = .object types) (root.get? "simple_types") [] types
  groups : Replaces (fun v groups => v = .object groups) (root.get? "attribute_groups") [] groups
  elements : root.get? "elements" = some (.object elements)

/-- What these declarations stand for as a schema. -/
structure Interprets (types groups elements : Assoc Json) (s : Schema) : Prop where
  back : RefersBack types
  finite : ∀ name chain, name ∈ Assoc.keys types →
    List.IsChain (Refers types) (name :: chain) → chain.length < types.length
  typed : ∀ name ∈ Assoc.keys types, ∃! rule, Means types (.string name) rule
  grouped : ∀ entry ∈ groups, ∃ group, MeansGroup types entry.2 group
  elements : List.Forall₂
    (fun entry entry' => entry.1 = entry'.1 ∧ MeansElement types groups entry.2 entry'.2)
    elements s.elements

namespace Replaces

variable {α : Type} {states : Json → α → Prop} {stated : Option Json} {old new new' : α}

theorem unique (alone : ∀ v a b, states v a → states v b → a = b)
    (h : Replaces states stated old new) (h' : Replaces states stated old new') : new = new' := by
  cases stated with
  | none => exact Eq.trans h (Eq.symm h')
  | some v => exact alone v new new' h h'

theorem of_some (h : Replaces states stated old new) {v : Json} (there : stated = some v) :
    states v new := by
  subst there
  exact h

/-- A part that is read if it is stated. -/
theorem of_mapM {read : Json → Except Error α} {found : Option α}
    (reads : ∀ v a, read v = .ok a → states v a) (done : stated.mapM read = .ok found) :
    Replaces states stated old (found.getD old) := by
  cases stated with
  | none =>
    cases done
    rfl
  | some v =>
    obtain ⟨a, here, done⟩ := ok_of_bind done
    cases done
    exact reads v a here

end Replaces

theorem Overlays.unique {entries : Assoc Json} {old new new' : ValueRule}
    (h : Overlays entries old new) (h' : Overlays entries old new') : new = new' := by
  have kind := h.kind.unique (fun v a b first second =>
    ValueKind.word_injective (Json.string.inj (first.symm.trans second))) h'.kind
  have values := h.values.unique (fun v a b first second =>
    List.map_injective_iff.2 (fun _ _ => Json.string.inj)
      (Json.array.inj (first.symm.trans second))) h'.values
  have bound (v : Json) (a b : Option Float) :
      (∃ x, v = .number x ∧ a = some x) → (∃ x, v = .number x ∧ b = some x) → a = b := by
    rintro ⟨x, rfl, rfl⟩ ⟨y, same, rfl⟩
    cases same
    rfl
  have min := h.min.unique bound h'.min
  have max := h.max.unique bound h'.max
  cases new
  cases new'
  simp only at kind values min max
  rw [kind, values, min, max]

namespace Means

variable {types more : Assoc Json} {v : Json} {rule rule' : ValueRule}

/-- A value stands for one rule only. -/
theorem unique (h : Means types v rule) (h' : Means types v rule') : rule = rule' := by
  induction h generalizing rule' with
  | named declared _ ih =>
    cases h' with
    | named declared' means =>
      rw [declared] at declared'
      cases declared'
      exact ih means
  | plain noType overlay =>
    cases h' with
    | plain _ overlay' => exact overlay.unique overlay'
    | derived typed =>
      rw [noType] at typed
      cases typed
  | derived typed _ overlay ih =>
    cases h' with
    | plain noType =>
      rw [noType] at typed
      cases typed
    | derived typed' start overlay' =>
      rw [typed] at typed'
      cases typed'
      rw [← ih start] at overlay'
      exact overlay.unique overlay'

/-- More declarations change nothing. -/
theorem append (h : Means types v rule) : Means (types ++ more) v rule := by
  induction h with
  | named declared _ ih => exact .named (by rw [Assoc.get?_append, declared, Option.some_or]) ih
  | plain noType overlay => exact .plain noType overlay
  | derived typed _ overlay ih => exact .derived typed ih overlay

theorem declared {name : String} (h : Means types (.string name) rule) :
    name ∈ Assoc.keys types := by
  cases h with
  | named declared _ => exact List.mem_map.2 ⟨_, Assoc.mem_of_get? declared, rfl⟩

/-- What stands for a rule refers to what is declared only. -/
theorem reference_declared (h : Means types v rule) {name : String}
    (refers : reference? v = some name) : name ∈ Assoc.keys types := by
  cases h with
  | named there means =>
    cases refers
    exact (Means.named there means).declared
  | plain noType overlay =>
    rw [reference?, noType] at refers
    cases refers
  | derived typed start overlay =>
    rw [reference?, typed] at refers
    cases refers
    exact start.declared

end Means

/-! ### Chains of references -/

/-- Each step of a chain leads towards the first simple type. -/
theorem RefersBack.length_le {types : Assoc Json} (distinct : (Assoc.keys types).Nodup)
    (back : RefersBack types) {before : Assoc Json} {name : String} {body : Json}
    {chain : List String} (split : before ++ [(name, body)] <+: types)
    (refers : List.IsChain (Refers types) (name :: chain)) : chain.length ≤ before.length := by
  -- the next name of the chain stands among those before, with fewer before it
  induction chain generalizing before name body with
  | nil => exact Nat.zero_le _
  | cons other chain ih =>
    obtain ⟨⟨body', found, reference⟩, refers⟩ := List.isChain_cons_cons.1 refers
    have here : types.get? name = some body :=
      (Assoc.get?_eq_some_iff distinct).2 (split.subset (by simp))
    cases Option.some.inj (here.symm.trans found)
    obtain ⟨⟨other', body'⟩, member, rfl⟩ :=
      List.mem_map.1 (back before name body split other reference)
    obtain ⟨before, after, rfl⟩ := List.append_of_mem member
    have earlier : before ++ [(other', body')] <+: types :=
      .trans ⟨after ++ [(name, body)], by simp⟩ split
    have shorter := ih earlier refers
    rw [List.length_cons, List.length_append, List.length_cons]
    omega

/-- A chain of references has fewer steps than there are simple types. -/
theorem RefersBack.length_lt {types : Assoc Json} (distinct : (Assoc.keys types).Nodup)
    (back : RefersBack types) {name : String} {chain : List String}
    (declared : name ∈ Assoc.keys types)
    (refers : List.IsChain (Refers types) (name :: chain)) : chain.length < types.length := by
  obtain ⟨⟨name', body⟩, member, rfl⟩ := List.mem_map.1 declared
  obtain ⟨before, after, rfl⟩ := List.append_of_mem member
  have split : before ++ [(name', body)] <+: before ++ (name', body) :: after := ⟨after, by simp⟩
  have bound := back.length_le distinct split refers
  rw [List.length_append, List.length_cons]
  omega

/-- Where each simple type has a meaning by those before it, it refers to one of them. -/
theorem RefersBack.of_means {types : Assoc Json}
    (typed : ∀ before name body, before ++ [(name, body)] <+: types →
      ∃ rule, Means before body rule) : RefersBack types := by
  intro before name body inside other refers
  obtain ⟨rule, means⟩ := typed before name body inside
  exact means.reference_declared refers

/-- What a simple type means by those before it is all that it means. -/
theorem existsUnique_means {types : Assoc Json} (distinct : (Assoc.keys types).Nodup)
    (typed : ∀ before name body, before ++ [(name, body)] <+: types →
      ∃ rule, Means before body rule) :
    ∀ name ∈ Assoc.keys types, ∃! rule, Means types (.string name) rule := by
  intro name declared
  obtain ⟨⟨name', body⟩, member, rfl⟩ := List.mem_map.1 declared
  have here : types.get? name' = some body := (Assoc.get?_eq_some_iff distinct).2 member
  obtain ⟨before, after, split⟩ := List.append_of_mem member
  obtain ⟨rule, means⟩ := typed before name' body ⟨after, by simp [split]⟩
  have named : Means types (.string name') rule := .named here (split ▸ means.append)
  exact ⟨rule, named, fun rule' means' => means'.unique named⟩

/-! ### Tables of attributes -/

variable {α β : Type} {types : Assoc Json}

theorem MeansTable.keys {declared : Assoc Json} {table : Assoc AttributeRule}
    (h : MeansTable types declared table) : table.keys = declared.keys := by
  induction h with
  | nil => rfl
  | cons here _ ih => exact congrArg₂ List.cons here.1.symm ih

theorem MeansTable.rel_get? {declared : Assoc Json} {table : Assoc AttributeRule}
    (h : MeansTable types declared table) (name : String) :
    Option.Rel (MeansAttribute types) (declared.get? name) (table.get? name) := by
  induction h with
  | nil => exact .none
  | @cons entry entry' _ _ here _ ih =>
    obtain ⟨key, v⟩ := entry
    obtain ⟨key', rule⟩ := entry'
    obtain ⟨rfl, means⟩ := here
    rw [Assoc.get?_cons, Assoc.get?_cons]
    split
    · exact .some means
    · exact ih

theorem map_keys_of_means {tables : List (Assoc Json)} {groups : List (Assoc AttributeRule)}
    (each : List.Forall₂ (MeansTable types) tables groups) :
    groups.map Assoc.keys = tables.map Assoc.keys := by
  induction each with
  | nil => rfl
  | cons here _ ih => exact congrArg₂ List.cons here.keys ih

theorem rel_or {R : α → β → Prop} {a a' : Option α} {b b' : Option β}
    (h : Option.Rel R a b) (h' : Option.Rel R a' b') : Option.Rel R (a.or a') (b.or b') := by
  cases h with
  | none => exact h'
  | some related => exact .some related

theorem rel_findSome? {tables : List (Assoc Json)} {groups : List (Assoc AttributeRule)}
    (each : List.Forall₂ (MeansTable types) tables groups) (name : String) :
    Option.Rel (MeansAttribute types) (tables.reverse.findSome? (·.get? name))
      (groups.reverse.findSome? (·.get? name)) := by
  induction each with
  | nil => exact .none
  | cons here _ ih =>
    rw [List.reverse_cons, List.reverse_cons, List.findSome?_append, List.findSome?_append,
      List.findSome?_singleton, List.findSome?_singleton]
    exact rel_or ih (here.rel_get? name)

/-- Putting tables one after the other combines them. -/
theorem combines_of_putAll {tables : List (Assoc Json)} {own : Assoc Json}
    {groups : List (Assoc AttributeRule)} {group : Assoc AttributeRule}
    (each : List.Forall₂ (MeansTable types) tables groups) (here : MeansTable types own group)
    (distinct : ∀ t ∈ tables ++ [own], (Assoc.keys t).Nodup) :
    Combines types tables own ((groups ++ [group]).foldl Assoc.putAll []) := by
  have keys : (groups ++ [group]).map Assoc.keys = (tables ++ [own]).map Assoc.keys :=
    map_keys_of_means (List.rel_append each (.cons here .nil))
  have distinct' : ∀ t ∈ groups ++ [group], (Assoc.keys t).Nodup := by
    rw [← List.forall_mem_map (P := List.Nodup), keys]
    exact List.forall_mem_map.2 distinct
  constructor
  -- only the keys decide which names there are, and they are those of the declarations
  · rw [Assoc.keys_foldl_putAll, List.flatMap_def, List.flatMap_def, keys]
  · intro name
    have nothing : Assoc.get? ([] : Assoc AttributeRule) name = none := rfl
    rw [Assoc.get?_foldl_putAll distinct', nothing, Option.or_none, List.reverse_append,
      List.findSome?_append, List.reverse_singleton, List.findSome?_singleton]
    exact rel_or (here.rel_get? name) (rel_findSome? each name)

end Schema

end ScoreScript
