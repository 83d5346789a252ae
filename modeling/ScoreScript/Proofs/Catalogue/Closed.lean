import Mathlib.Data.List.Forall2
import ScoreScript.Catalogue.Resolution
import ScoreScript.Proofs.Assoc
import ScoreScript.Proofs.Stateful

/-!
Catalogues that refer only to types of their own. The numbers that resolution gives to nested
types are places in its table, so whatever a data file declares, no number in the finished
catalogue leads nowhere. Main statement: `Catalogue.closed_of_ofText`.
-/

namespace ScoreScript

namespace Catalogue

/-- The catalogue has a type with this number. -/
def Has (c : Catalogue) (id : TypeId) : Prop :=
  ∃ type, c.get? id = some type

theorem has_iff {c : Catalogue} {id : TypeId} : c.Has id ↔ id.index < c.size := by
  rw [Has, get?, size]
  exact ⟨fun ⟨_, found⟩ => (Array.getElem?_eq_some_iff.1 found).1,
    fun inside => ⟨_, Array.getElem?_eq_getElem inside⟩⟩

theorem Has.element {c : Catalogue} {id : TypeId} (has : c.Has id) :
    ∃ type, c.get? id = some type ∧ c.element id = .ok type := by
  obtain ⟨type, found⟩ := has
  exact ⟨type, found, by rw [Catalogue.element, found]⟩

theorem get?_of_element {c : Catalogue} {id : TypeId} {type : ElementType}
    (found : c.element id = .ok type) : c.get? id = some type := by
  unfold Catalogue.element at found
  split at found
  · cases found
    assumption
  · cases found

/-- A type refers only to types that the catalogue has. -/
structure Knows (c : Catalogue) (type : ElementType) : Prop where
  scope : ∀ entry ∈ type.scope, c.Has entry.2
  slots : ∀ entry ∈ type.fields, ∀ slot, entry.2 = .child slot → c.Has slot

/-- Whatever the catalogue refers to it has. -/
structure Closed (c : Catalogue) : Prop where
  globals : ∀ entry ∈ c.globals, c.Has entry.2
  types : ∀ id type, c.get? id = some type → c.Knows type

end Catalogue

/-! ### Numbers -/

theorem TypeDecl.count_pos (d : TypeDecl) : 0 < d.count := by
  cases d
  rw [TypeDecl.count]
  omega

/-- Declarations in a row have numbers from the first one on. -/
theorem numbers_range (next : Nat) (decls : List (String × TypeDecl)) :
    ∀ entry ∈ numbers next decls, next ≤ entry.2 ∧ entry.2 < next + countAll decls := by
  induction decls generalizing next with
  | nil => exact nofun
  | cons first rest ih =>
    obtain ⟨name, type⟩ := first
    rw [numbers, countAll]
    refine List.forall_mem_cons.2 ⟨?_, fun entry member => ?_⟩
    · have := type.count_pos
      exact ⟨Nat.le_refl next, by simp only; omega⟩
    · have later := ih (next + type.count) entry member
      omega

mutual

/-- A declaration takes as many places as it makes types, and the types nested in those have
places among them. -/
theorem TypeDecl.numbered_spec (around : List (Assoc Nat)) (name : String) (index : Nat) :
    (d : TypeDecl) → (d.numbered around name index).length = d.count ∧
      ∀ t ∈ d.numbered around name index, ∀ entry ∈ t.nested, entry.2 < index + d.count
  | ⟨fields, namespaces, order, nested, base, isAbstract⟩ => by
    obtain ⟨length, inside⟩ :=
      numberedAll_spec (numbers (index + 1) nested :: around) (index + 1) nested
    rw [TypeDecl.numbered, TypeDecl.count]
    refine ⟨by rw [List.length_cons, length], List.forall_mem_cons.2 ⟨?_, ?_⟩⟩
    · intro entry member
      have := (numbers_range (index + 1) nested entry member).2
      omega
    · intro t member entry here
      have := inside t member entry here
      omega

theorem numberedAll_spec (around : List (Assoc Nat)) (next : Nat) :
    (decls : List (String × TypeDecl)) →
      (numberedAll around next decls).length = countAll decls ∧
      ∀ t ∈ numberedAll around next decls, ∀ entry ∈ t.nested, entry.2 < next + countAll decls
  | [] => ⟨rfl, nofun⟩
  | (name, type) :: rest => by
    obtain ⟨length, inside⟩ := type.numbered_spec around name next
    obtain ⟨lengths, later⟩ := numberedAll_spec around (next + type.count) rest
    rw [numberedAll, countAll]
    refine ⟨by rw [List.length_append, length, lengths], ?_⟩
    intro t member entry here
    rcases List.mem_append.1 member with first | second
    · have := inside t first entry here
      omega
    · have := later t second entry here
      omega

end

/-! ### Resolution -/

namespace Resolver

/-- The types nested in a chain are those nested in its members. -/
theorem exists_of_mem_scope {chain : List NumberedType} {entry : String × TypeId}
    (member : entry ∈ scope chain) :
    ∃ t ∈ chain, ∃ nested ∈ t.nested, entry.2 = ⟨nested.2⟩ := by
  have collected (names : Assoc Nat) : ∀ table : Assoc TypeId,
      entry ∈ names.foldl (fun table nested =>
        if table.contains nested.1 then table else table ++ [(nested.1, ⟨nested.2⟩)]) table →
      entry ∈ table ∨ ∃ nested ∈ names, entry.2 = ⟨nested.2⟩ := by
    induction names with
    | nil => exact fun _ here => .inl here
    | cons first rest ih =>
      intro table here
      rcases ih _ here with earlier | ⟨nested, inside, same⟩
      · dsimp only at earlier
        split at earlier
        · exact .inl earlier
        · rcases List.mem_append.1 earlier with old | new
          · exact .inl old
          · exact .inr ⟨first, List.mem_cons_self, by rw [List.mem_singleton.1 new]⟩
      · exact .inr ⟨nested, List.mem_cons_of_mem first inside, same⟩
  rcases collected _ [] member with none | ⟨nested, inside, same⟩
  · cases none
  · obtain ⟨t, there, here⟩ := List.mem_flatMap.1 inside
    exact ⟨t, there, nested, here, same⟩

theorem mem_of_mem_chain {r : Resolver} {t t' : NumberedType} {index : Nat}
    {chain : List NumberedType} (found : r.chain t index = .ok chain) (member : t' ∈ chain) :
    t' ∈ r.types := by
  unfold Resolver.chain at found
  split at found
  · cases found
    obtain ⟨i, -, there⟩ := List.mem_filterMap.1 member
    exact Array.mem_of_getElem? there
  · cases found

/-- A field that holds children holds those of a type in scope or of an outermost type. -/
theorem field_child {r : Resolver} {t : NumberedType} {chain : List NumberedType}
    {scope : Assoc TypeId} {name : String} {slot : TypeId}
    (resolved : r.field t chain scope name = .ok (.child slot)) :
    (∃ entry ∈ scope, entry.2 = slot) ∨ ∃ entry ∈ r.globals, ⟨entry.2⟩ = slot := by
  unfold Resolver.field at resolved
  split at resolved
  · cases resolved
  · split at resolved
    · cases resolved
    · split at resolved
      · rename_i type found
        cases resolved
        rcases Option.or_eq_some_iff.1 found with inner | ⟨-, outer⟩
        · exact .inl ⟨_, Assoc.mem_of_get? inner, rfl⟩
        · obtain ⟨index, global, same⟩ := Option.map_eq_some_iff.1 outer
          exact .inr ⟨_, Assoc.mem_of_get? global, same⟩
      · cases resolved

/-- A complete type refers only to what the table of types holds. -/
theorem elementType_refers {r : Resolver} {t : NumberedType} {index size : Nat}
    {type : ElementType} (nested : ∀ t ∈ r.types, ∀ entry ∈ t.nested, entry.2 < size)
    (globals : ∀ entry ∈ r.globals, entry.2 < size)
    (complete : r.elementType t index = .ok type) :
    (∀ entry ∈ type.scope, entry.2.index < size) ∧
      ∀ entry ∈ type.fields, ∀ slot, entry.2 = .child slot → slot.index < size := by
  unfold elementType at complete
  obtain ⟨chain, chained, complete⟩ := ok_of_bind complete
  obtain ⟨fields, listed, complete⟩ := ok_of_bind complete
  cases complete
  have inner : ∀ entry ∈ scope chain, entry.2.index < size := by
    intro entry member
    obtain ⟨t', inChain, nested', here, same⟩ := exists_of_mem_scope member
    rw [same]
    exact nested t' (mem_of_mem_chain chained inChain) nested' here
  refine ⟨inner, fun entry member slot child => ?_⟩
  have inside := (Assoc.mem_putAll member).resolve_left (List.not_mem_nil)
  obtain ⟨name, made⟩ := exists_of_mem_mapM listed inside
  obtain ⟨field, resolved, made⟩ := ok_of_bind made
  cases made
  cases child
  rcases field_child resolved with ⟨entry, here, rfl⟩ | ⟨entry, here, rfl⟩
  · exact inner entry here
  · exact globals entry here

end Resolver

namespace Catalogue

theorem closed_of_ofDecl {d : CatalogueDecl} {c : Catalogue} (complete : ofDecl d = .ok c) :
    c.Closed := by
  unfold ofDecl at complete
  obtain ⟨bases, -, complete⟩ := ok_of_bind complete
  obtain ⟨types, listed, complete⟩ := ok_of_bind complete
  cases complete
  obtain ⟨length, nested⟩ := numberedAll_spec [] 0 d.types
  have size : types.length = countAll d.types := by
    rw [← (forall₂_of_mapM listed).length_eq, List.length_zipIdx, length]
  simp only [Nat.zero_add] at nested
  have globals : ∀ entry ∈ numbers 0 d.types, entry.2 < countAll d.types := by
    intro entry member
    have := (numbers_range 0 d.types entry member).2
    omega
  constructor
  · intro entry member
    obtain ⟨outer, inside, rfl⟩ := List.mem_map.1 member
    rw [has_iff, Catalogue.size, List.size_toArray, size]
    exact globals outer (List.mem_filter.1 inside).1
  · intro id type found
    have member : type ∈ types := by
      rw [get?, List.getElem?_toArray] at found
      exact List.mem_of_getElem? found
    obtain ⟨t, made⟩ := exists_of_mem_mapM listed member
    obtain ⟨scope, slots⟩ : (∀ entry ∈ type.scope, entry.2.index < countAll d.types) ∧
        ∀ entry ∈ type.fields, ∀ slot, entry.2 = .child slot → slot.index < countAll d.types :=
      Resolver.elementType_refers (by simpa using nested)
        (fun entry member => globals entry (List.mem_filter.1 member).1) made
    constructor
    · intro entry here
      rw [has_iff, Catalogue.size, List.size_toArray, size]
      exact scope entry here
    · intro entry here slot child
      rw [has_iff, Catalogue.size, List.size_toArray, size]
      exact slots entry here slot child

/-- The catalogue of a data file refers only to types that it has. -/
theorem closed_of_ofText {text : String} {c : Catalogue} (read : ofText text = .ok c) :
    c.Closed := by
  unfold ofText at read
  obtain ⟨root, -, read⟩ := ok_of_bind read
  obtain ⟨d, -, complete⟩ := ok_of_bind read
  exact closed_of_ofDecl complete

end Catalogue

/-!
What the fields of a type are. Resolution decides by the name of a field, and it converts the names
of attributes once, so every field in a finished catalogue is what its name says, and no two fields
of a type have one name. Main statements: `Catalogue.fields_named_of_ofText`,
`Catalogue.fields_distinct_of_ofText`.
-/

/-- A field is what its name says: the text, an attribute under the name that documents have for it,
or a child. -/
def Field.Named (name : String) : Field → Prop
  | .text => name = textField
  | .attr converted ns =>
    name ≠ textField ∧ isAttributeName name = true ∧ converted = Naming.attributeName name ns
  | .child _ => name ≠ textField ∧ isAttributeName name = false

namespace Resolver

theorem field_named {r : Resolver} {t : NumberedType} {chain : List NumberedType}
    {scope : Assoc TypeId} {name : String} {field : Field}
    (resolved : r.field t chain scope name = .ok field) : field.Named name := by
  unfold Resolver.field at resolved
  split at resolved
  · cases resolved
    assumption
  · rename_i other
    split at resolved
    · rename_i lower
      cases resolved
      exact ⟨other, lower, rfl⟩
    · rename_i noLower
      split at resolved
      · cases resolved
        exact ⟨other, Bool.eq_false_iff.2 noLower⟩
      · cases resolved

theorem elementType_named {r : Resolver} {t : NumberedType} {index : Nat} {type : ElementType}
    (complete : r.elementType t index = .ok type) :
    ∀ entry ∈ type.fields, entry.2.Named entry.1 := by
  unfold elementType at complete
  obtain ⟨chain, -, complete⟩ := ok_of_bind complete
  obtain ⟨fields, listed, complete⟩ := ok_of_bind complete
  cases complete
  intro entry member
  have inside := (Assoc.mem_putAll member).resolve_left List.not_mem_nil
  obtain ⟨name, made⟩ := exists_of_mem_mapM listed inside
  obtain ⟨field, resolved, made⟩ := ok_of_bind made
  cases made
  exact field_named resolved

/-- No two fields have the same name. -/
theorem elementType_distinct {r : Resolver} {t : NumberedType} {index : Nat} {type : ElementType}
    (complete : r.elementType t index = .ok type) : (Assoc.keys type.fields).Nodup := by
  unfold elementType at complete
  obtain ⟨chain, -, complete⟩ := ok_of_bind complete
  obtain ⟨fields, -, complete⟩ := ok_of_bind complete
  cases complete
  have none : (Assoc.keys ([] : Assoc Field)).Nodup := List.nodup_nil
  exact Assoc.nodup_keys_putAll none fields

end Resolver

namespace Catalogue

theorem resolved_of_ofDecl {d : CatalogueDecl} {c : Catalogue} (complete : ofDecl d = .ok c)
    {id : TypeId} {type : ElementType} (known : c.get? id = some type) :
    ∃ (r : Resolver) (t : NumberedType) (index : Nat), r.elementType t index = .ok type := by
  unfold ofDecl at complete
  obtain ⟨bases, -, complete⟩ := ok_of_bind complete
  obtain ⟨types, listed, complete⟩ := ok_of_bind complete
  cases complete
  rw [get?, List.getElem?_toArray] at known
  obtain ⟨t, made⟩ := exists_of_mem_mapM listed (List.mem_of_getElem? known)
  exact ⟨_, t.1, t.2, made⟩

/-- A type in the catalogue of a data file was completed by resolution. -/
theorem resolved_of_ofText {text : String} {c : Catalogue} (read : ofText text = .ok c)
    {id : TypeId} {type : ElementType} (known : c.get? id = some type) :
    ∃ (r : Resolver) (t : NumberedType) (index : Nat), r.elementType t index = .ok type := by
  unfold ofText at read
  obtain ⟨root, -, read⟩ := ok_of_bind read
  obtain ⟨d, -, complete⟩ := ok_of_bind read
  exact resolved_of_ofDecl complete known

/-- Every field in the catalogue of a data file is what its name says. -/
theorem fields_named_of_ofText {text : String} {c : Catalogue} (read : ofText text = .ok c)
    {id : TypeId} {type : ElementType} (known : c.get? id = some type) :
    ∀ entry ∈ type.fields, entry.2.Named entry.1 := by
  obtain ⟨r, t, index, complete⟩ := resolved_of_ofText read known
  exact Resolver.elementType_named complete

/-- The fields of a type in the catalogue of a data file have different names. -/
theorem fields_distinct_of_ofText {text : String} {c : Catalogue} (read : ofText text = .ok c)
    {id : TypeId} {type : ElementType} (known : c.get? id = some type) :
    (Assoc.keys type.fields).Nodup := by
  obtain ⟨r, t, index, complete⟩ := resolved_of_ofText read known
  exact Resolver.elementType_distinct complete

/-- The same for a field that is looked up. -/
theorem named_of_field? {text : String} {c : Catalogue} (read : ofText text = .ok c)
    {id : TypeId} {type : ElementType} (known : c.get? id = some type) {name : String}
    {field : Field} (there : type.field? name = some field) : field.Named name :=
  fields_named_of_ofText read known _ (Assoc.mem_of_get? there)

end Catalogue

end ScoreScript
