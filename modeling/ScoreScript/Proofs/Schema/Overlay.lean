import ScoreScript.Proofs.Json.Formats
import ScoreScript.Proofs.Json.Spelling
import ScoreScript.Proofs.Schema.Meaning

/-!
Schemas from data files mean what their declarations stand for. While a file is read, the tables of
simple types and of groups hold what the declarations so far stand for, and a declaration that comes
later changes nothing of that. Main statement: `Schema.ofText_overlays`.
-/

namespace ScoreScript

namespace Schema

/-! ### Reading the parts of a rule -/

variable {α : Type} {types groups : Assoc Json} {names names' : SchemaNames} {v : Json}

theorem readKind_checked {what : String} :
    Checked (fun kind => v = .string kind.word) (SchemaNames.readKind what v) := by
  unfold SchemaNames.readKind
  split
  · exact rfl
  · exact rfl
  · exact rfl
  · exact checked_malformed

theorem readBound_checked {what key : String} :
    Checked (fun x => v = .number x) (SchemaNames.readBound what key v) := by
  unfold SchemaNames.readBound
  split
  · exact rfl
  · exact checked_malformed

theorem readRequired_checked {what : String} {stated : Option Json} :
    Checked (Replaces (fun v b => v = .bool b) stated false)
      (SchemaNames.readRequired what stated) := by
  unfold SchemaNames.readRequired
  split
  · exact rfl
  · exact rfl
  · exact checked_malformed

/-- A bound is read if it is stated. -/
theorem replaces_bound {what key : String} {stated : Option Json} {found old : Option Float}
    (done : stated.mapM (SchemaNames.readBound what key) = .ok found) :
    Replaces (fun v bound => ∃ x, v = .number x ∧ bound = some x) stated old (found.or old) := by
  cases stated with
  | none =>
    cases done
    rfl
  | some v =>
    obtain ⟨x, here, done⟩ := ok_of_bind done
    cases done
    exact ⟨x, readBound_checked.of_ok here, rfl⟩

/-! ### What is known while a file is read -/

/-- What a table holds under a name is what the declaration with that name stands for. -/
def Known (means : Json → α → Prop) (declared : Assoc Json) (table : Assoc α) : Prop :=
  ∀ name a, table.get? name = some a → ∃ v, declared.get? name = some v ∧ means v a

namespace Known

variable {means more : Json → α → Prop} {declared : Assoc Json} {table : Assoc α}

theorem nil : Known means declared [] := by
  intro name a found
  cases found

theorem mono (h : Known means declared table) (le : ∀ v a, means v a → more v a) :
    Known more declared table := fun name a found =>
  (h name a found).imp fun v here => here.imp_right (le v a)

/-- A declaration with a new name is read, and put into the table. -/
theorem put (h : Known means declared table) {name : String} {a : α}
    (new : declared.contains name = false) (here : means v a) :
    Known means (declared ++ [(name, v)]) (table.put name a) := by
  intro other a' found
  rw [Assoc.get?_put] at found
  rw [Assoc.get?_append]
  split at found
  · rename_i same
    cases found
    refine ⟨v, ?_, here⟩
    rw [same, Assoc.get?_eq_none_iff.2 new, Option.none_or, Assoc.get?_cons, if_pos rfl]
  · obtain ⟨v', there, means'⟩ := h other a' found
    exact ⟨v', by rw [there, Option.some_or], means'⟩

end Known

theorem simpleType_means (known : Known (Means types) types names.types) {what name : String}
    {rule : ValueRule} (found : names.simpleType what name = .ok rule) :
    Means types (.string name) rule := by
  unfold SchemaNames.simpleType at found
  split at found
  · rename_i there
    cases found
    obtain ⟨body, declared, means⟩ := known name _ there
    exact .named declared means
  · cases found

/-- What is read as a rule stands for it. -/
theorem valueRule_means (known : Known (Means types) types names.types) {what : String}
    {rule : ValueRule} (read : names.valueRule what v = .ok rule) : Means types v rule := by
  unfold SchemaNames.valueRule at read
  split at read
  · exact simpleType_means known read
  · obtain ⟨entries, object, read⟩ := ok_of_bind read
    obtain ⟨-, -, read⟩ := ok_of_bind read
    obtain ⟨base, start, read⟩ := ok_of_bind read
    obtain ⟨kind, kindRead, read⟩ := ok_of_bind read
    obtain ⟨values, valuesRead, read⟩ := ok_of_bind read
    obtain ⟨min, minRead, read⟩ := ok_of_bind read
    obtain ⟨max, maxRead, read⟩ := ok_of_bind read
    cases read
    rw [toObject_checked.of_ok object]
    have overlay : Overlays entries base
        ⟨kind.getD base.kind, values.getD base.values, min.or base.min, max.or base.max⟩ :=
      ⟨.of_mapM (fun _ _ => readKind_checked.of_ok) kindRead,
        .of_mapM (fun _ _ => toStrings_checked.of_ok) valuesRead, replaces_bound minRead,
        replaces_bound maxRead⟩
    unfold SchemaNames.baseRule at start
    split at start
    · rename_i noType
      cases start
      exact .plain noType overlay
    · rename_i typed
      exact .derived typed (simpleType_means known start) overlay
    · cases start

/-- Each simple type is read with those before it. -/
theorem types_of_addType (distinct : (Assoc.keys types).Nodup)
    (read : types.foldlM SchemaNames.addType .empty = .ok names) :
    Known (Means types) types names.types ∧ names.groups = [] ∧
      ∀ before name body, before ++ [(name, body)] <+: types → ∃ rule, Means before body rule := by
  refine foldlM_prefix (fun before names => Known (Means before) before names.types ∧
    names.groups = [] ∧ ∀ earlier name body, earlier ++ [(name, body)] <+: before →
      ∃ rule, Means earlier body rule)
    ⟨.nil, rfl, by simp⟩ ?_ read
  rintro before ⟨name, body⟩ names names' inside ⟨known, groups, each⟩ added
  obtain ⟨rule, here, added⟩ := ok_of_bind added
  cases added
  have means : Means before body rule := valueRule_means known here
  -- what stands for a rule where fewer types are declared stands for it still
  refine ⟨?_, groups, fun earlier name' body' split => ?_⟩
  · exact (known.mono fun _ _ => .append).put (Assoc.contains_of_prefix distinct inside) means.append
  · rcases List.prefix_concat_iff.1 split with same | split
    · obtain ⟨rfl, last⟩ := List.append_inj' same rfl
      cases last
      exact ⟨rule, means⟩
    · exact each earlier name' body' split

/-! ### Groups of attributes -/

theorem group_of_attributes (known : Known (Means types) types names.types) {what : String}
    {group : Assoc AttributeRule} (read : names.attributes what v = .ok group) :
    MeansGroup types v group := by
  obtain ⟨declared, object, read⟩ := ok_of_bind read
  refine ⟨declared, toObject_checked.of_ok object, (forall₂_of_mapM read).imp ?_⟩
  rintro ⟨name, body⟩ ⟨name', rule⟩ done
  obtain ⟨required, stated, done⟩ := ok_of_bind done
  obtain ⟨value, here, done⟩ := ok_of_bind done
  cases done
  exact ⟨rfl, readRequired_checked.of_ok stated, valueRule_means known here⟩

theorem groups_of_addGroup (distinct : (Assoc.keys groups).Nodup)
    (known : Known (Means types) types names.types) (noGroups : names.groups = [])
    (read : groups.foldlM SchemaNames.addGroup names = .ok names') :
    Known (Means types) types names'.types ∧ Known (MeansGroup types) groups names'.groups ∧
      ∀ entry ∈ groups, ∃ group, MeansGroup types entry.2 group := by
  refine foldlM_prefix (fun before names => Known (Means types) types names.types ∧
    Known (MeansGroup types) before names.groups ∧
    ∀ entry ∈ before, ∃ group, MeansGroup types entry.2 group)
    ⟨known, noGroups ▸ .nil, by simp⟩ ?_ read
  rintro before ⟨name, body⟩ names names' inside ⟨known, groups, each⟩ added
  obtain ⟨group, here, added⟩ := ok_of_bind added
  cases added
  have means : MeansGroup types body group := group_of_attributes known here
  refine ⟨known, groups.put (Assoc.contains_of_prefix distinct inside) means, fun entry member => ?_⟩
  rcases List.mem_append.1 member with earlier | last
  · exact each entry earlier
  · cases List.mem_singleton.1 last
    exact ⟨group, means⟩

/-! ### Attributes of elements -/

theorem tables_of_group (known : Known (MeansGroup types) groups names.groups) {tag : String}
    {group : Assoc AttributeRule} (read : names.group tag v = .ok group) :
    ∃ name table, v = .string name ∧ groups.get? name = some (.object table) ∧
      MeansTable types table group := by
  unfold SchemaNames.group at read
  split at read
  case h_2 => cases read
  rename_i found
  cases read
  obtain ⟨name, isName, there⟩ := Option.bind_eq_some_iff.1 found
  obtain ⟨_, declared, table, rfl, means⟩ := known name group there
  cases v <;> cases isName
  exact ⟨name, table, rfl, declared, means⟩

theorem tables_of_groupAttributes (known : Known (MeansGroup types) groups names.groups)
    {tag : String} {stated : Option Json} {tables' : List (Assoc AttributeRule)}
    (read : names.groupAttributes tag stated = .ok tables') :
    ∃ listed tables,
      Replaces (fun v names => v = .array (names.map .string)) stated [] listed ∧
      List.Forall₂ (fun name table => groups.get? name = some (.object table)) listed tables ∧
      List.Forall₂ (MeansTable types) tables tables' := by
  unfold SchemaNames.groupAttributes at read
  split at read
  · cases read
    exact ⟨[], [], rfl, .nil, .nil⟩
  · have each := forall₂_of_mapM read
    clear read
    induction each with
    | nil => exact ⟨[], [], rfl, .nil, .nil⟩
    | cons here _ ih =>
      obtain ⟨listed, tables, items, found, means⟩ := ih
      obtain ⟨name, table, rfl, here, meansHere⟩ := tables_of_group known here
      cases items
      exact ⟨name :: listed, table :: tables, rfl, .cons here found, .cons meansHere means⟩
  · cases read

theorem own_of_mapM (known : Known (Means types) types names.types) {what : String}
    {stated : Option Json} {table : Option (Assoc AttributeRule)}
    (read : stated.mapM (names.attributes what) = .ok table) :
    ∃ own, Replaces (fun v own => v = .object own) stated [] own ∧
      MeansTable types own (table.getD []) := by
  cases stated with
  | none =>
    cases read
    exact ⟨[], rfl, .nil⟩
  | some v =>
    obtain ⟨table, here, read⟩ := ok_of_bind read
    cases read
    obtain ⟨own, rfl, means⟩ := group_of_attributes known here
    exact ⟨own, rfl, means⟩

/-! ### Contents of elements -/

theorem count_checked {tag : String} : Checked (IsCount v) (SchemaNames.count tag v) := by
  unfold SchemaNames.count
  cases v with
  | number x =>
    dsimp only [Json.asNumber?]
    split
    · rename_i whole
      rw [Bool.and_eq_true, Bool.and_eq_true, decide_eq_true_iff, decide_eq_true_iff] at whole
      exact ⟨x, rfl, whole.1.1, whole.1.2, whole.2, rfl⟩
    · exact checked_malformed
  | _ => exact checked_malformed

theorem readMax_checked {tag : String} {stated : Option Json} :
    Checked (Replaces IsBound stated (some 1)) (SchemaNames.readMax tag stated) := by
  unfold SchemaNames.readMax
  split
  · exact rfl
  · exact .inl ⟨rfl, rfl⟩
  · exact count_checked.map fun n here => .inr ⟨n, here, rfl⟩

theorem readTerm_checked {tag : String} {one choice : Option Json} :
    Checked (MeansTerm one choice) (SchemaNames.readTerm tag one choice) := by
  unfold SchemaNames.readTerm
  split
  · exact MeansTerm.element _
  · exact checked_malformed
  · refine toStrings_checked.bind fun tags _ here => ?_
    cases here
    exact MeansTerm.choice tags
  · exact checked_malformed

theorem means_particle {tag : String} {p : Particle}
    (read : SchemaNames.particle tag v = .ok p) : MeansParticle v p := by
  obtain ⟨entries, object, read⟩ := ok_of_bind read
  obtain ⟨-, -, read⟩ := ok_of_bind read
  obtain ⟨term, termRead, read⟩ := ok_of_bind read
  obtain ⟨min, minRead, read⟩ := ok_of_bind read
  obtain ⟨max, maxRead, read⟩ := ok_of_bind read
  rw [toObject_checked.of_ok object]
  dsimp only at read
  split at read
  · cases read
  · rename_i ordered
    cases read
    refine ⟨readTerm_checked.of_ok termRead, .of_mapM (fun _ _ => count_checked.of_ok) minRead,
      readMax_checked.of_ok maxRead, ?_⟩
    rintro most rfl
    simpa using ordered

theorem items_of_sequence {tag : String} {particles : List Particle}
    (read : SchemaNames.sequence tag v = .ok particles) :
    ∃ items, v = .array items ∧ List.Forall₂ MeansParticle items particles := by
  unfold SchemaNames.sequence at read
  split at read
  · rename_i items isArray
    cases v <;> cases isArray
    exact ⟨items, rfl, (forall₂_of_mapM read).imp fun _ _ => means_particle⟩
  · cases read

theorem means_content (known : Known (Means types) types names.types) {tag : String}
    {steps text : Option Json} {content : Content}
    (read : names.content tag steps text = .ok content) : MeansContent types steps text content := by
  unfold SchemaNames.content at read
  split at read
  · cases read
  · obtain ⟨particles, here, rfl⟩ := ok_of_map read
    obtain ⟨items, rfl, each⟩ := items_of_sequence here
    exact .sequence each
  · obtain ⟨rule, here, rfl⟩ := ok_of_map read
    exact .text (valueRule_means known here)
  · cases read
    exact .empty

/-! ### Whole files -/

theorem distinct_of_stated {root entries : Assoc Json} {key : String}
    (distinct : (Json.object root).Distinct)
    (declared : Replaces (fun v entries => v = .object entries) (root.get? key) [] entries) :
    (Json.object entries).Distinct := by
  cases there : root.get? key with
  | none =>
    rw [there] at declared
    cases declared
    exact .object .nil nofun
  | some v =>
    rw [there] at declared
    cases declared
    exact distinct.of_get? there

theorem means_element (known : Known (Means types) types names.types)
    (knownGroups : Known (MeansGroup types) groups names.groups)
    (distinct : (Json.object groups).Distinct) (distinct' : v.Distinct) {tag : String}
    {rule : ElementRule} (read : names.element tag v = .ok rule) :
    MeansElement types groups v rule := by
  obtain ⟨body, object, read⟩ := ok_of_bind read
  obtain ⟨-, -, read⟩ := ok_of_bind read
  obtain ⟨tables', groupsRead, read⟩ := ok_of_bind read
  obtain ⟨table, ownRead, read⟩ := ok_of_bind read
  obtain ⟨content, contentRead, read⟩ := ok_of_bind read
  cases read
  cases toObject_checked.of_ok object
  obtain ⟨listed, tables, stated, found, each⟩ := tables_of_groupAttributes knownGroups groupsRead
  obtain ⟨own, ownStated, here⟩ := own_of_mapM known ownRead
  have tables_distinct : ∀ t ∈ tables, (Assoc.keys t).Nodup :=
    forall_of_forall₂ found fun _ _ there => (distinct.of_get? there).nodup_keys
  refine ⟨⟨body, rfl⟩, ⟨listed, tables, own, stated, found, ownStated, ?_⟩,
    means_content known contentRead⟩
  -- an element without attributes of its own is read as if it declared none
  have together : (tables' ++ table.toList).foldl Assoc.putAll [] =
      (tables' ++ [table.getD []]).foldl Assoc.putAll [] := by
    cases table with
    | none => rw [List.foldl_concat, Option.toList_none, List.append_nil]; rfl
    | some table => rfl
  rw [together]
  refine combines_of_putAll each here fun t member => ?_
  rcases List.mem_append.1 member with group | last
  · exact tables_distinct t group
  · exact List.mem_singleton.1 last ▸ (distinct_of_stated distinct' ownStated).nodup_keys

theorem section_checked {root : Assoc Json} {key : String} :
    Checked (Replaces (fun v entries => v = .object entries) (root.get? key) [])
      (section? root key) := by
  unfold section?
  cases root.get? key with
  | none => exact rfl
  | some v => exact toObject_checked

/-- A schema from a data file means what the declarations in the file stand for. -/
theorem ofText_overlays {text : String} {s : Schema} (accepted : ofText text = .ok s) :
    ∃ root types groups elements, Json.ofText text = .ok (.object root) ∧
      Declares root types groups elements ∧ Interprets types groups elements s := by
  obtain ⟨v, parsed, whole⟩ := ok_of_bind accepted
  have distinct := Json.distinct_of_ofText parsed
  obtain ⟨root, object, read⟩ := ok_of_bind whole
  cases toObject_checked.of_ok object
  obtain ⟨types, typesSection, read⟩ := ok_of_bind read
  obtain ⟨names, typesRead, read⟩ := ok_of_bind read
  obtain ⟨groups, groupsSection, read⟩ := ok_of_bind read
  obtain ⟨names', groupsRead, read⟩ := ok_of_bind read
  dsimp only at read
  split at read
  case h_1 => cases read
  rename_i declared there
  obtain ⟨elements, isObject, read⟩ := ok_of_bind read
  obtain ⟨rules, elementsRead, read⟩ := ok_of_bind read
  cases read
  cases toObject_checked.of_ok isObject
  have typesStated := section_checked.of_ok typesSection
  have groupsStated := section_checked.of_ok groupsSection
  have typesDistinct := distinct_of_stated distinct typesStated
  have groupsDistinct := distinct_of_stated distinct groupsStated
  have elementsDistinct := distinct.of_get? there
  obtain ⟨known, noGroups, typed⟩ := types_of_addType typesDistinct.nodup_keys typesRead
  obtain ⟨known', knownGroups, grouped⟩ :=
    groups_of_addGroup groupsDistinct.nodup_keys known noGroups groupsRead
  have back : RefersBack types := .of_means typed
  have each :=
    (List.forall₂_and_left _ _).2 ⟨elementsDistinct.of_mem, forall₂_of_mapM elementsRead⟩
  refine ⟨root, types, groups, elements, parsed, ⟨typesStated, groupsStated, there⟩, back,
    fun _ _ => back.length_lt typesDistinct.nodup_keys,
    existsUnique_means typesDistinct.nodup_keys typed, grouped, each.imp ?_⟩
  rintro ⟨tag, body⟩ ⟨tag', rule⟩ ⟨bodyDistinct, done⟩
  obtain ⟨rule, here, done⟩ := ok_of_bind done
  cases done
  exact ⟨rfl, means_element known' knownGroups groupsDistinct bodyDistinct here⟩

/-- A type that refers to another, and an element whose attributes come from three places. -/
def overlayText : String :=
  "\x7b\"simple_types\": \x7b\"a\": \x7b\"values\": [\"x\"]\x7d, " ++
    "\"b\": \x7b\"type\": \"a\", \"kind\": \"integer\"\x7d\x7d, " ++
    "\"attribute_groups\": \x7b\"f\": \x7b\"p\": \"a\", \"q\": \"a\"\x7d, \"g\": \x7b\"q\": \"b\"\x7d\x7d, " ++
    "\"elements\": \x7b\"e\": \x7b\"attribute_groups\": [\"f\", \"g\"], " ++
    "\"attributes\": \x7b\"r\": \"a\", \"p\": \x7b\"required\": true\x7d\x7d\x7d\x7d\x7d"

/-- The type keeps what it does not state, the group that comes last counts, and the element's own
declaration counts before that of any group without changing the place of its name. -/
theorem ofText_overlays_groups :
    ∃ s, ofText overlayText = .ok s ∧
      (∃ root types groups elements, Json.ofText overlayText = .ok (.object root) ∧
        Declares root types groups elements ∧ Interprets types groups elements s) ∧
      (s.rule? "e").map (fun rule => rule.attributes.map fun entry =>
        (entry.1, entry.2.required, entry.2.value.kind, entry.2.value.values)) =
        some [("p", true, .string, []), ("q", false, .integer, ["x"]),
          ("r", false, .string, ["x"])] := by
  have known : ((ofText overlayText).toOption.map fun s => decide (
      (s.rule? "e").map (fun rule => rule.attributes.map fun entry =>
        (entry.1, entry.2.required, entry.2.value.kind, entry.2.value.values)) =
        some [("p", true, .string, []), ("q", false, .integer, ["x"]),
          ("r", false, .string, ["x"])])) = some true := by
    decide +kernel
  obtain ⟨s, accepted, same⟩ := ok_of_known known
  exact ⟨s, accepted, ofText_overlays accepted, of_decide_eq_true same⟩

end Schema

end ScoreScript
