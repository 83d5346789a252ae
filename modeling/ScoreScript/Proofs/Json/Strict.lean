import ScoreScript.Catalogue.Resolution
import ScoreScript.Proofs.Schema.Overlay

/-!
How strictly data files are read. What the readers of schemas and of catalogues ask of a value is
what its place in the format asks, but for the entries that they leave out of account, and this
holds at every level; all that they refuse they refuse as a data file. Main statement:
`dataFiles_strict`.
-/

namespace ScoreScript

open Schema

variable {v : Json} {entries : Assoc Json} {names : SchemaNames}

/-! ### Types of what is read -/

theorem isStrings_of_toStrings {noArray noString : String} :
    Checked (fun _ => v.isStrings = true) (v.toStrings noArray noString) := by
  refine toStrings_checked.mono fun texts same => ?_
  rw [same]
  exact Json.isStrings_map texts

theorem isWord_of_readKind {what : String} :
    Checked (fun _ => v.isWord ["string", "integer", "decimal"] = true)
      (SchemaNames.readKind what v) := by
  refine readKind_checked.mono fun kind same => ?_
  rw [same]
  cases kind <;> rfl

theorem isNumber_of_readBound {what key : String} :
    Checked (fun _ => v.isNumber = true) (SchemaNames.readBound what key v) := by
  refine readBound_checked.mono fun x same => ?_
  rw [same]
  rfl

theorem isNumber_of_count {tag : String} :
    Checked (fun _ => v.isNumber = true) (SchemaNames.count tag v) := by
  refine count_checked.mono fun n ⟨x, same, _⟩ => ?_
  rw [same]
  rfl

theorem types_of_meansTerm {one choice : Option Json} {term : Term}
    (h : MeansTerm one choice term) :
    (∀ v, one = some v → v.isString = true) ∧ ∀ v, choice = some v → v.isStrings = true := by
  cases h with
  | element tag =>
    refine ⟨fun v same => ?_, nofun⟩
    cases same
    rfl
  | choice tags =>
    refine ⟨nofun, fun v same => ?_⟩
    cases same
    exact Json.isStrings_map tags

/-! ### Rules for values -/

theorem simpleType_checked {what name : String} :
    Checked (fun _ => True) (names.simpleType what name) := by
  unfold SchemaNames.simpleType
  split
  · trivial
  · exact checked_malformed

theorem baseRule_checked {what : String} {stated : Option Json} :
    Checked (fun _ => ∀ v, stated = some v → v.isString = true) (names.baseRule what stated) := by
  unfold SchemaNames.baseRule
  split
  · exact nofun
  · refine simpleType_checked.mono fun _ _ v same => ?_
    cases same
    rfl
  · exact checked_malformed

/-- What the reader of rules asks of a value; it does not look at what is required. -/
def FitsRule (v : Json) : Prop :=
  v.isString = true ∨ ∃ entries, v = .object entries ∧ ∀ entry ∈ entries,
    (SchemaPlace.ruleKeys.get? entry.1).any (· entry.2) = true ∨ entry.1 = "required"

theorem valueRule_checked (distinct : v.Distinct) {what : String} :
    Checked (fun _ => FitsRule v) (names.valueRule what v) := by
  unfold SchemaNames.valueRule
  split
  · exact simpleType_checked.mono fun _ _ => .inl rfl
  refine toObject_checked.bind fun entries _ object => ?_
  cases object
  refine checkKeys_checked.bind fun _ _ known => ?_
  refine baseRule_checked.bind fun _ _ typed => ?_
  refine (Returns.forall_optionMapM fun _ _ => isWord_of_readKind).bind fun _ _ kind => ?_
  refine (Returns.forall_optionMapM fun _ _ => isStrings_of_toStrings).bind fun _ _ values => ?_
  refine (Returns.forall_optionMapM fun _ _ => isNumber_of_readBound).bind fun _ _ min => ?_
  refine (Returns.forall_optionMapM fun _ _ => isNumber_of_readBound).bind fun _ _ max => ?_
  refine .inr ⟨entries, rfl, forall_of_keys distinct.nodup_keys known ?_⟩
  simp only [List.forall_mem_cons]
  exact ⟨fun v there => .inl (typed v there), fun v there => .inl (kind v there),
    fun v there => .inl (values v there), fun v there => .inl (min v there),
    fun v there => .inl (max v there), fun _ _ => .inr trivial, nofun⟩

theorem FitsRule.takes (h : FitsRule v) :
    SchemaPlace.simpleType.Takes v ∧ SchemaPlace.textRule.Takes v := by
  rcases h with word | ⟨entries, rfl, each⟩
  · exact ⟨.inl ⟨rfl, word⟩, .inl ⟨rfl, word⟩⟩
  · have leaves : ∀ entry ∈ entries,
        (SchemaPlace.ruleKeys.get? entry.1).any (· entry.2) = true ∨ (entry.1 == "required") = true :=
      fun entry member => (each entry member).imp_right beq_iff_eq.2
    exact ⟨.inr ⟨entries, rfl, leaves⟩, .inr ⟨entries, rfl, leaves⟩⟩

theorem FitsRule.isRule (h : FitsRule v) : (v.isString || v.isObject) = true := by
  rcases h with word | ⟨entries, rfl, -⟩
  · rw [word, Bool.true_or]
  · rfl

/-- Rules for attributes are looked at as a whole. -/
theorem FitsRule.attributeRule (h : FitsRule v) (distinct : v.Distinct)
    {b : Bool} (required : Replaces (fun v b => v = .bool b) (v.get? "required") false b) :
    SchemaPlace.attributeRule.Takes v := by
  rcases h with word | ⟨entries, rfl, each⟩
  · exact .inl ⟨rfl, word⟩
  refine .inr ⟨entries, rfl, fun entry member => .inl ?_⟩
  have both : Assoc.get? (SchemaPlace.keys .attributeRule) entry.1 =
      (SchemaPlace.ruleKeys.get? entry.1).or (Assoc.get? [("required", Json.isBool)] entry.1) :=
    Assoc.get?_append ..
  rw [DataFormat.documents, SchemaPlace.format, both]
  rcases each entry member with here | last
  · cases found : SchemaPlace.ruleKeys.get? entry.1 with
    | none =>
      rw [found] at here
      cases here
    | some type =>
      rw [found] at here
      exact here
  · have value : Assoc.get? entries "required" = some entry.2 :=
      (Assoc.get?_eq_some_iff distinct.nodup_keys).2 (last ▸ member)
    rw [last, required.of_some value]
    rfl

theorem attributes_checked (distinct : v.Distinct) {what : String} :
    Checked (fun _ => ∃ entries, v = .object entries ∧
      ∀ entry ∈ entries, SchemaPlace.attributeRule.Takes entry.2) (names.attributes what v) := by
  unfold SchemaNames.attributes
  refine toObject_checked.bind fun entries _ object => ?_
  cases object
  refine (Returns.forall_mapM fun entry member => ?_).mono fun _ each => ⟨entries, rfl, each⟩
  have inner := distinct.of_mem entry member
  refine readRequired_checked.bind fun _ _ required => ?_
  exact (valueRule_checked inner).bind fun _ _ fits => fits.attributeRule inner required

/-! ### Elements -/

theorem groupAttributes_checked {tag : String} {stated : Option Json} :
    Checked (fun _ => ∀ v, stated = some v → v.isStrings = true)
      (names.groupAttributes tag stated) := by
  unfold SchemaNames.groupAttributes
  split
  · exact nofun
  · rename_i items
    have each : ∀ item ∈ items, Checked (fun _ => item.isString = true) (names.group tag item) := by
      intro item _
      unfold SchemaNames.group
      cases item with
      | string name =>
        split
        · exact rfl
        · exact checked_malformed
      | _ => exact checked_malformed
    refine (Returns.forall_mapM each).mono fun _ all v same => ?_
    cases same
    exact List.all_eq_true.2 all
  · exact checked_malformed

theorem particle_checked (distinct : v.Distinct) {tag : String} :
    Checked (fun _ => SchemaPlace.particle.Takes v) (SchemaNames.particle tag v) := by
  unfold SchemaNames.particle
  refine toObject_checked.bind fun entries _ object => ?_
  cases object
  refine checkKeys_checked.bind fun _ _ known => ?_
  refine readTerm_checked.bind fun _ _ term => ?_
  refine (Returns.forall_optionMapM fun _ _ => isNumber_of_count).bind fun _ _ min => ?_
  refine readMax_checked.bind fun _ _ max => ?_
  dsimp only
  split
  · exact checked_malformed
  refine .inr ⟨entries, rfl, forall_of_keys distinct.nodup_keys known ?_⟩
  simp only [List.forall_mem_cons]
  obtain ⟨one, choice⟩ := types_of_meansTerm term
  refine ⟨fun v there => .inl (one v there), fun v there => .inl (choice v there),
    fun v there => .inl (min v there), fun v there => .inl ?_, nofun⟩
  rcases max.of_some there with ⟨rfl, -⟩ | ⟨n, ⟨x, rfl, -⟩, -⟩
  · rfl
  · rfl

/-- What the reader of elements asks of a value and of all that stands in it. -/
structure FitsElement (v : Json) : Prop where
  here : SchemaPlace.element.Takes v
  own : ∀ own, v.get? "attributes" = some (.object own) →
    ∀ entry ∈ own, SchemaPlace.attributeRule.Takes entry.2
  text : ∀ rule, v.get? "text" = some rule → SchemaPlace.textRule.Takes rule
  particles : ∀ steps, v.get? "sequence" = some (.array steps) →
    ∀ step ∈ steps, SchemaPlace.particle.Takes step

theorem sequence_checked (distinct : v.Distinct) {tag : String} :
    Checked (fun _ => ∃ steps, v = .array steps ∧ ∀ step ∈ steps, SchemaPlace.particle.Takes step)
      (SchemaNames.sequence tag v) := by
  unfold SchemaNames.sequence
  cases distinct with
  | @array items inside =>
    refine (Returns.forall_mapM fun step member => particle_checked (inside step member)).mono ?_
    exact fun _ each => ⟨items, rfl, each⟩
  | _ => exact checked_malformed

theorem content_checked {tag : String} {steps text : Option Json}
    (stepsDistinct : ∀ v, steps = some v → v.Distinct)
    (textDistinct : ∀ v, text = some v → v.Distinct) :
    Checked (fun _ =>
      (∀ v, steps = some v →
        ∃ items, v = .array items ∧ ∀ step ∈ items, SchemaPlace.particle.Takes step) ∧
      ∀ v, text = some v → FitsRule v) (names.content tag steps text) := by
  unfold SchemaNames.content
  split
  · exact checked_malformed
  · refine (sequence_checked (stepsDistinct _ rfl)).map fun _ each => ⟨fun v same => ?_, nofun⟩
    cases same
    exact each
  · refine (valueRule_checked (textDistinct _ rfl)).map fun _ fits => ⟨nofun, fun v same => ?_⟩
    cases same
    exact fits
  · exact ⟨nofun, nofun⟩

theorem element_checked (distinct : v.Distinct) {tag : String} :
    Checked (fun _ => FitsElement v) (names.element tag v) := by
  unfold SchemaNames.element
  refine toObject_checked.bind fun entries _ object => ?_
  cases object
  have inner (key : String) (w : Json) (there : Assoc.get? entries key = some w) : w.Distinct :=
    distinct.of_get? there
  refine checkKeys_checked.bind fun _ _ known => ?_
  refine groupAttributes_checked.bind fun _ _ groups => ?_
  refine (Returns.forall_optionMapM fun w there =>
    attributes_checked (inner _ w there)).bind fun _ _ own => ?_
  refine (content_checked (inner _) (inner _)).bind fun _ _ ⟨steps, text⟩ => ?_
  constructor
  · refine .inr ⟨entries, rfl, forall_of_keys distinct.nodup_keys known ?_⟩
    simp only [List.forall_mem_cons]
    refine ⟨fun v there => .inl ?_, fun v there => .inl (groups v there), fun v there => .inl ?_,
      fun v there => .inl (text v there).isRule, nofun⟩
    · obtain ⟨_, rfl, -⟩ := own v there
      rfl
    · obtain ⟨_, rfl, -⟩ := steps v there
      rfl
  · intro table there
    obtain ⟨_, same, each⟩ := own _ there
    cases same
    exact each
  · exact fun rule there => (text rule there).takes.2
  · intro items there
    obtain ⟨_, same, each⟩ := steps _ there
    cases same
    exact each

/-! ### Schemas -/

theorem addType_checked {entry : String × Json} (distinct : entry.2.Distinct) :
    Checked (fun _ => FitsRule entry.2) (names.addType entry) :=
  (valueRule_checked distinct).bind fun _ _ fits => fits

theorem addGroup_checked {entry : String × Json} (distinct : entry.2.Distinct) :
    Checked (fun _ => ∃ entries, entry.2 = .object entries ∧
      ∀ entry ∈ entries, SchemaPlace.attributeRule.Takes entry.2) (names.addGroup entry) :=
  (attributes_checked distinct).bind fun _ _ fits => fits

/-- The sections of a schema, with what stands in them. -/
structure FitsSchema (root : Assoc Json) : Prop where
  distinct : (Json.object root).Distinct
  types : ∀ v, root.get? "simple_types" = some v →
    ∃ entries, v = .object entries ∧ ∀ entry ∈ entries, FitsRule entry.2
  groups : ∀ v, root.get? "attribute_groups" = some v →
    ∃ entries, v = .object entries ∧ ∀ entry ∈ entries,
      ∃ table, entry.2 = .object table ∧ ∀ rule ∈ table, SchemaPlace.attributeRule.Takes rule.2
  elements : ∀ v, root.get? "elements" = some v →
    ∃ entries, v = .object entries ∧ ∀ entry ∈ entries, FitsElement entry.2

namespace FitsSchema

variable {root : Assoc Json}

/-- At the top nobody looks at other keys than those of the sections. -/
theorem file (h : FitsSchema root) : SchemaPlace.file.Takes (.object root) := by
  refine .inr ⟨root, rfl, fun entry member => ?_⟩
  have value : root.get? entry.1 = some entry.2 :=
    (Assoc.get?_eq_some_iff h.distinct.nodup_keys).2 member
  obtain ⟨key, v⟩ := entry
  by_cases looked : key ∈ ["simple_types", "attribute_groups", "elements"]
  · left
    simp only [List.mem_cons, List.not_mem_nil, or_false] at looked
    rcases looked with rfl | rfl | rfl
    · obtain ⟨_, rfl, -⟩ := h.types v value
      rfl
    · obtain ⟨entries, rfl, each⟩ := h.groups v value
      refine List.all_eq_true.2 fun entry member => ?_
      obtain ⟨_, same, -⟩ := each entry member
      rw [same]
      rfl
    · obtain ⟨_, rfl, -⟩ := h.elements v value
      rfl
  · right
    simpa [SchemaPlace.leaves] using looked

theorem element (h : FitsSchema root) (holds : SchemaPlace.Holds (.object root) .element v) :
    FitsElement v := by
  cases holds with
  | element there member =>
    obtain ⟨_, same, each⟩ := h.elements _ there
    cases same
    exact each _ member

/-- A file fits if what stands in its sections does. -/
theorem fits (h : FitsSchema root) :
    SchemaPlace.format.Fits SchemaPlace.leaves (.object root) := by
  intro p v holds
  cases holds with
  | file => exact h.file
  | simpleType there member =>
    obtain ⟨_, same, each⟩ := h.types _ there
    cases same
    exact (each _ member).takes.1
  | grouped there member inner =>
    obtain ⟨_, same, each⟩ := h.groups _ there
    cases same
    obtain ⟨_, same, rules⟩ := each _ member
    cases same
    exact rules _ inner
  | element there member => exact (h.element (.element there member)).here
  | own holds there member => exact (h.element holds).own _ there _ member
  | text holds there => exact (h.element holds).text _ there
  | particle holds there member => exact (h.element holds).particles _ there _ member

end FitsSchema

theorem schema_checked (distinct : v.Distinct) :
    Checked (fun _ => SchemaPlace.format.Fits SchemaPlace.leaves v) (Schema.ofJson v) := by
  unfold Schema.ofJson
  refine toObject_checked.bind fun root _ object => ?_
  cases object
  refine section_checked.bind fun types _ typesStated => ?_
  have typesDistinct := distinct_of_stated distinct typesStated
  refine (Returns.forall_foldlM (fun names entry member =>
    addType_checked (typesDistinct.of_mem entry member)) _).bind fun _ _ typesFit => ?_
  refine section_checked.bind fun groups _ groupsStated => ?_
  have groupsDistinct := distinct_of_stated distinct groupsStated
  refine (Returns.forall_foldlM (fun names entry member =>
    addGroup_checked (groupsDistinct.of_mem entry member)) _).bind fun names _ groupsFit => ?_
  cases there : Assoc.get? root "elements" with
  | none => exact checked_malformed
  | some declared =>
    refine toObject_checked.bind fun elements _ object => ?_
    cases object
    have elementsDistinct : (Json.object elements).Distinct := distinct.of_get? there
    have each (entry : String × Json) (member : entry ∈ elements) :
        Checked (fun _ => FitsElement entry.2)
          (do return (entry.1, ← names.element entry.1 entry.2)) :=
      (element_checked (elementsDistinct.of_mem entry member)).bind fun _ _ fits => fits
    refine (Returns.forall_mapM each).bind fun _ _ elementsFit => ?_
    have known : FitsSchema root := {
      distinct
      types := fun v stated => ⟨types, typesStated.of_some stated, typesFit⟩
      groups := fun v stated => ⟨groups, groupsStated.of_some stated, groupsFit⟩
      elements := fun v stated =>
        ⟨elements, Option.some.inj (stated.symm.trans there), elementsFit⟩ }
    exact known.fits

/-! ### Catalogues -/

/-- What the reader of types asks of a value and of the types nested in it. -/
inductive FitsType : Json → Prop where
  | mk {entries : Assoc Json}
    (here : CataloguePlace.format.FitsAt CataloguePlace.leaves .type (.object entries))
    (nested : ∀ types, entries.get? "nested" = some (.object types) →
      ∀ entry ∈ types, FitsType entry.2) :
    FitsType (.object entries)

theorem readNamespaces_checked {name : String} :
    Checked (fun _ => v.isTableOf Json.isString = true) (TypeDecl.readNamespaces name v) := by
  unfold TypeDecl.readNamespaces
  refine toObject_checked.bind fun entries _ object => ?_
  cases object
  refine (Returns.forall_mapM (P := fun entry => entry.2.isString = true) fun entry _ => ?_).mono
    fun _ all => List.all_eq_true.2 all
  obtain ⟨field, v⟩ := entry
  cases v with
  | string ns => exact rfl
  | _ => exact checked_malformed

theorem readBase_checked {name : String} :
    Checked (fun _ => v.isString = true) (TypeDecl.readBase name v) := by
  unfold TypeDecl.readBase
  cases v with
  | string base => exact rfl
  | _ => exact checked_malformed

/-- All entries of a declaration are looked at, save those that are nested in it. -/
theorem readOuter_checked (distinct : (Json.object entries).Distinct) {name : String} :
    Checked (fun _ => (∀ v, entries.get? "nested" = some v → v.isObject = true) →
      CataloguePlace.format.FitsAt CataloguePlace.leaves .type (.object entries))
      (TypeDecl.readOuter name entries) := by
  unfold TypeDecl.readOuter
  refine checkKeys_checked.bind fun _ _ known => ?_
  refine (Returns.forall_optionMapM fun _ _ => isStrings_of_toStrings).bind fun _ _ fields => ?_
  refine (Returns.forall_optionMapM fun _ _ => isStrings_of_toStrings).bind fun _ _ order => ?_
  refine (Returns.forall_optionMapM fun _ _ => readNamespaces_checked).bind fun _ _ namespaces => ?_
  refine (Returns.forall_optionMapM fun _ _ => readBase_checked).bind fun _ _ base nested => ?_
  refine .inr ⟨entries, rfl, forall_of_keys distinct.nodup_keys known ?_⟩
  simp only [List.forall_mem_cons]
  exact ⟨fun v there => .inl (fields v there), fun v there => .inl (namespaces v there),
    fun v there => .inl (order v there), fun v there => .inl (nested v there),
    fun v there => .inl (base v there), fun _ _ => .inr rfl, nofun⟩

mutual

theorem ofJson_checked (name : String) :
    (v : Json) → v.Distinct → Checked (fun _ => FitsType v) (TypeDecl.ofJson name v)
  | .object entries, distinct => by
    rw [TypeDecl.ofJson]
    refine (readOuter_checked distinct).bind fun _ _ outer => ?_
    refine (readNested_checked name entries distinct.of_mem).bind fun _ _ nested => ?_
    refine FitsType.mk (outer fun v there => ?_) fun types there => ?_
    · obtain ⟨_, rfl, -⟩ := nested v there
      rfl
    · obtain ⟨_, same, each⟩ := nested _ there
      cases same
      exact each
  | .null, _ | .bool _, _ | .number _, _ | .string _, _ | .array _, _ => by
    rw [TypeDecl.ofJson]
    · exact checked_malformed
    · exact nofun

theorem readNested_checked (name : String) :
    (entries : List (String × Json)) → (∀ entry ∈ entries, entry.2.Distinct) →
      Checked (fun _ => ∀ v, Assoc.get? entries "nested" = some v →
        ∃ types, v = .object types ∧ ∀ entry ∈ types, FitsType entry.2)
        (TypeDecl.readNested name entries)
  | [], _ => by
    rw [TypeDecl.readNested]
    exact nofun
  | entry :: rest, inside => by
    obtain ⟨here, later⟩ := List.forall_mem_cons.1 inside
    unfold TypeDecl.readNested
    split
    case h_1 heq => cases heq
    case h_2 types _ heq =>
      cases heq
      refine (ofEntries_checked types here.of_mem).mono fun _ each v there => ?_
      rw [Assoc.get?_cons, if_pos rfl] at there
      exact ⟨types, (Option.some.inj there).symm, each⟩
    case h_3 => exact checked_malformed
    case h_4 other heq =>
      -- the entry has another key, so what is nested comes later
      cases heq
      obtain ⟨key, value⟩ := entry
      have else' : "nested" ≠ key := fun same => other value (by rw [same])
      rw [Assoc.get?_cons, if_neg else']
      exact readNested_checked name rest later

theorem ofEntries_checked :
    (entries : List (String × Json)) → (∀ entry ∈ entries, entry.2.Distinct) →
      Checked (fun _ => ∀ entry ∈ entries, FitsType entry.2) (TypeDecl.ofEntries entries)
  | [], _ => by
    rw [TypeDecl.ofEntries]
    exact nofun
  | (name, v) :: rest, inside => by
    obtain ⟨here, later⟩ := List.forall_mem_cons.1 inside
    rw [TypeDecl.ofEntries]
    refine (ofJson_checked name v here).bind fun _ _ first => ?_
    refine (ofEntries_checked rest later).bind fun _ _ more => ?_
    exact List.forall_mem_cons.2 ⟨first, more⟩

end

theorem readDoctype_checked {entry : String × Json} :
    Checked (fun _ => entry.2.isString = true) (CatalogueDecl.readDoctype entry) := by
  obtain ⟨tag, v⟩ := entry
  unfold CatalogueDecl.readDoctype
  cases v with
  | string doctype => exact rfl
  | _ => exact checked_malformed

/-- A file fits if its types do and its lines, where they are a table. -/
theorem CataloguePlace.fits_of_sections {root : Assoc Json}
    (distinct : (Json.object root).Distinct)
    (doctypes : ∀ entries, root.get? "doctypes" = some (.object entries) →
      ∀ entry ∈ entries, entry.2.isString = true)
    (types : ∀ v, root.get? "types" = some v →
      ∃ entries, v = .object entries ∧ ∀ entry ∈ entries, FitsType entry.2) :
    format.Fits leaves (.object root) := by
  -- the induction is on how deep the type is nested
  have type (v : Json) (holds : Holds (.object root) .type v) : FitsType v := by
    generalize place : CataloguePlace.type = p at holds
    induction holds with
    | file => cases place
    | type there member =>
      obtain ⟨_, same, each⟩ := types _ there
      cases same
      exact each _ member
    | nested _ there member ih =>
      cases ih rfl with
      | mk _ nested => exact nested _ there _ member
  intro p v holds
  cases p with
  | type =>
    cases type v holds with
    | mk here _ => exact here
  | file =>
    cases holds
    refine .inr ⟨root, rfl, fun entry member => ?_⟩
    have value : root.get? entry.1 = some entry.2 :=
      (Assoc.get?_eq_some_iff distinct.nodup_keys).2 member
    obtain ⟨key, v⟩ := entry
    by_cases first : key = "types"
    · subst first
      obtain ⟨_, rfl, -⟩ := types v value
      exact .inl rfl
    by_cases second : key = "doctypes" ∧ v.isObject = true
    · obtain ⟨rfl, table⟩ := second
      cases v with
      | object entries => exact .inl (List.all_eq_true.2 (doctypes entries value))
      | _ => cases table
    · right
      have other := (not_and_or.1 second).imp_right eq_false_of_ne_true
      simpa [leaves] using ⟨first, other⟩

theorem catalogueDecl_checked (distinct : v.Distinct) :
    Checked (fun _ => CataloguePlace.format.Fits CataloguePlace.leaves v)
      (CatalogueDecl.ofJson v) := by
  unfold CatalogueDecl.ofJson
  refine (Returns.forall_mapM fun _ _ => readDoctype_checked).bind fun _ _ doctypes => ?_
  split
  case h_2 => exact checked_malformed
  rename_i types found
  obtain ⟨w, there, object⟩ := Option.bind_eq_some_iff.1 found
  cases w <;> cases object
  cases v with
  | object root =>
    have inner : (Json.object types).Distinct := distinct.of_get? there
    refine (ofEntries_checked types inner.of_mem).bind fun _ _ typesFit => ?_
    refine CataloguePlace.fits_of_sections distinct (fun entries stated => ?_) fun w stated => ?_
    · have table : ((Json.object root).get? "doctypes").bind Json.asObject? = some entries :=
        Option.bind_eq_some_iff.2 ⟨_, stated, rfl⟩
      rw [table] at doctypes
      exact doctypes
    · exact ⟨types, Option.some.inj (stated.symm.trans there), typesFit⟩
  | _ => cases there

/-! ### Resolution -/

theorem baseIndex_checked {t : NumberedType} {globals : Assoc Nat} {index : Nat} :
    Checked (fun _ => True) (t.baseIndex globals index) := by
  unfold NumberedType.baseIndex
  split
  · trivial
  · split
    · trivial
    · exact ⟨_, rfl⟩

theorem field_checked {r : Resolver} {t : NumberedType} {chain : List NumberedType}
    {scope : Assoc TypeId} {name : String} :
    Checked (fun _ => True) (r.field t chain scope name) := by
  unfold Resolver.field
  split
  · trivial
  · split
    · trivial
    · split
      · trivial
      · exact ⟨_, rfl⟩

theorem elementType_checked {r : Resolver} {t : NumberedType} {index : Nat} :
    Checked (fun _ => True) (r.elementType t index) := by
  unfold Resolver.elementType
  have chain : Checked (fun _ => True) (r.chain t index) := by
    unfold Resolver.chain
    split
    · trivial
    · exact ⟨_, rfl⟩
  refine chain.bind fun chain _ _ => ?_
  have fields (scope : Assoc TypeId) (name : String)
      (_ : name ∈ (chain.findSome? (·.fields)).getD []) :
      Checked (fun _ => True) (do return (name, ← r.field t chain scope name)) :=
    field_checked.bind fun _ _ _ => trivial
  exact (Returns.forall_mapM (fields _)).bind fun _ _ _ => trivial

theorem catalogue_checked {d : CatalogueDecl} : Checked (fun _ => True) (Catalogue.ofDecl d) := by
  unfold Catalogue.ofDecl
  refine (Returns.forall_mapM (P := fun _ => True) fun _ _ => baseIndex_checked).bind ?_
  intro _ _ _
  refine (Returns.forall_mapM (P := fun _ => True) fun _ _ => elementType_checked).bind ?_
  intro _ _ _
  trivial

/-! ### Data files -/

/-- How strictly the readers of schemas and of catalogues take what JSON there is. -/
theorem dataFiles_strict {text : String} {root : Json} (valid : Json.ofText text = .ok root) :
    IsStrict SchemaPlace.format SchemaPlace.leaves root (Schema.ofText text) ∧
      IsStrict CataloguePlace.format CataloguePlace.leaves root (Catalogue.ofText text) := by
  have distinct := Json.distinct_of_ofText valid
  constructor
  · have schema : Schema.ofText text = Schema.ofJson root := by
      rw [Schema.ofText, valid]
      rfl
    rw [schema]
    exact .of_checked (schema_checked distinct)
  · have catalogue : Catalogue.ofText text = CatalogueDecl.ofJson root >>= Catalogue.ofDecl := by
      rw [Catalogue.ofText, valid]
      rfl
    rw [catalogue]
    refine .of_checked ((catalogueDecl_checked distinct).bind fun _ _ fits => ?_)
    exact catalogue_checked.mono fun _ _ => fits

/-- A catalogue with a misspelt key in a nested type. -/
def misspeltText : String :=
  "\x7b\"types\": \x7b\"A\": \x7b\"nested\": \x7b\"B\": \x7b\"feilds\": []\x7d\x7d\x7d\x7d\x7d"

theorem dataFiles_strict_misspelt :
    ∃ root, Json.ofText misspeltText = .ok root ∧
      (IsStrict SchemaPlace.format SchemaPlace.leaves root (Schema.ofText misspeltText) ∧
        IsStrict CataloguePlace.format CataloguePlace.leaves root (Catalogue.ofText misspeltText)) ∧
      ∃ cause, Catalogue.ofText misspeltText = .error (.bare (.schema cause)) := by
  have isJson : (Json.ofText misspeltText).toOption.map (fun _ => ()) = some () := by
    decide +kernel
  have none : (Catalogue.ofText misspeltText).toOption.isNone = true := by
    decide +kernel
  obtain ⟨root, valid, -⟩ := ok_of_known isJson
  have strict := dataFiles_strict valid
  refine ⟨root, valid, strict, ?_⟩
  cases result : Catalogue.ofText misspeltText with
  | error e =>
    obtain ⟨cause, rfl⟩ := strict.2.failure e result
    exact ⟨cause, rfl⟩
  | ok c =>
    rw [result] at none
    cases none

/-- A catalogue with a word where a truth value should be. -/
def wordyText : String :=
  "\x7b\"types\": \x7b\"Note\": \x7b\"abstract\": \"yes\"\x7d\x7d\x7d"

/-- A schema with a misspelt key at its top. -/
def looseText : String :=
  "\x7b\"elements\": \x7b\x7d, \"simple_type\": \x7b\x7d\x7d"

/-- Both are accepted although they break their formats. -/
theorem dataFiles_loose :
    (∃ root c, Json.ofText wordyText = .ok root ∧ Catalogue.ofText wordyText = .ok c ∧
      ¬CataloguePlace.format.IsKept root) ∧
    ∃ root s, Json.ofText looseText = .ok root ∧ Schema.ofText looseText = .ok s ∧
      ¬SchemaPlace.format.IsKept root := by
  constructor
  · have isJson : (Json.ofText wordyText).toOption.map (fun root =>
        ((((root.get? "types").bind Json.asObject?).bind fun types => types.head?.bind fun entry =>
          (entry.2.get? "abstract").bind Json.asString?).isSome)) = some true := by
      decide +kernel
    have accepted : (Catalogue.ofText wordyText).toOption.map (fun _ => ()) = some () := by
      decide +kernel
    obtain ⟨root, valid, word⟩ := ok_of_known isJson
    obtain ⟨c, done, -⟩ := ok_of_known accepted
    refine ⟨root, c, valid, done, ?_⟩
    obtain ⟨word, word⟩ := Option.isSome_iff_exists.1 word
    obtain ⟨types, there, word⟩ := Option.bind_eq_some_iff.1 word
    obtain ⟨v, there, object⟩ := Option.bind_eq_some_iff.1 there
    obtain ⟨entry, first, word⟩ := Option.bind_eq_some_iff.1 word
    obtain ⟨w, value, word⟩ := Option.bind_eq_some_iff.1 word
    cases v <;> cases object
    cases w <;> cases word
    have holds : CataloguePlace.Holds root .type entry.2 := .type there (List.mem_of_head? first)
    exact DataFormat.not_isKept holds value rfl
  · have isJson : (Json.ofText looseText).toOption.map (fun root =>
        (root.get? "simple_type").isSome) = some true := by
      decide +kernel
    have accepted : (Schema.ofText looseText).toOption.map (fun _ => ()) = some () := by
      decide +kernel
    obtain ⟨root, valid, there⟩ := ok_of_known isJson
    obtain ⟨s, done, -⟩ := ok_of_known accepted
    obtain ⟨w, there⟩ := Option.isSome_iff_exists.1 there
    exact ⟨root, s, valid, done, DataFormat.not_isKept SchemaPlace.Holds.file there rfl⟩

end ScoreScript
