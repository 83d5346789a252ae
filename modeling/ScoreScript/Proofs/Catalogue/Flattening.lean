import ScoreScript.Proofs.Catalogue.Bases
import ScoreScript.Proofs.Catalogue.Closed

/-!
What a complete type takes from its bases. Resolution goes over the whole chain of bases for every
type; the result is that a type has what it declares, and the rest as its base has it in the finished
catalogue. Main statement: `Catalogue.ofText_flattens`.
-/

namespace ScoreScript

namespace Catalogue

/-- One part of the base of a type, where the type has a base. -/
def inherited {α : Type} (c : Catalogue) (base : Option TypeId) (part : ElementType → α) :
    Option α :=
  (base.bind c.get?).map part

end Catalogue

/-- A type of the catalogue has what its declaration lists, and what that leaves out it has from
its base. -/
structure Completes (d : CatalogueDecl) (c : Catalogue) (index : Nat) (t : NumberedType)
    (type : ElementType) : Prop where
  name : type.name = t.name
  tag : type.tag = Naming.tagName t.name
  isAbstract : type.isAbstract = t.isAbstract
  base : ∀ id, type.base = some id ↔ d.Links index id.index
  noBase : type.base = none ↔ t.base = none
  fields : type.fields.keys =
    ((t.fields.map List.eraseDups).or (c.inherited type.base (·.fields.keys))).getD []
  order : type.order = (t.order.or (c.inherited type.base (·.order))).getD []
  /-- The types nested in the type itself come first, and hide others of their names. -/
  scope : type.scope = t.nested.map (fun entry => (entry.1, ⟨entry.2⟩)) ++
    ((c.inherited type.base (·.scope)).getD []).filter fun entry => !t.nested.contains entry.1
  kinds : ∀ entry ∈ type.fields, entry.2.Named entry.1
  slots : ∀ name slot, (name, Field.child slot) ∈ type.fields →
    (type.scope.get? name).or (c.global? name) = some slot
  /-- The nearest type that declares a namespace for an attribute decides. -/
  namespaces : ∀ name converted ns, (name, Field.attr converted ns) ∈ type.fields →
    ∀ ids, c.Chain ⟨index⟩ ids →
      ns = ids.findSome? fun id => (d.table[id.index]?).bind (·.namespaces.get? name)

namespace Catalogue

/-- A catalogue is what the declarations make, each type complete in itself. -/
structure Flattens (c : Catalogue) (d : CatalogueDecl) : Prop where
  closed : c.Closed
  bases : ∀ id type, c.get? id = some type → ∀ base, type.base = some base → c.Has base
  chains : ∀ id, c.Has id → ∃ ids, c.Chain id ids
  outermost : d.outermost.keys = Assoc.keys d.types
  listed : ∀ (i : Nat) (decl : String × TypeDecl) (number : String × Nat), d.types[i]? = some decl →
    d.outermost[i]? = some number → Holds d.table [] decl.1 number.2 decl.2
  size : c.size = countAll d.types ∧ d.table.length = countAll d.types
  globals : ∀ name id, c.global? name = some id ↔
    d.outermost.get? name = some id.index ∧
      ∃ t, d.table[id.index]? = some t ∧ t.isAbstract = false
  types : ∀ (index : Nat) (t : NumberedType), d.table[index]? = some t →
    ∃ type, c.get? ⟨index⟩ = some type ∧ Completes d c index t type

end Catalogue

/-! ### Scopes -/

namespace Resolver

/-- Nested types that are added to those known already. -/
def collect (table : Assoc TypeId) (nested : Assoc Nat) : Assoc TypeId :=
  nested.foldl (fun table (name, index) =>
    if table.contains name then table else table ++ [(name, ⟨index⟩)]) table

theorem collect_eq (table : Assoc TypeId) (nested : Assoc Nat) :
    collect table nested =
      table ++ (collect [] nested).filter fun entry => !table.contains entry.1 := by
  induction nested generalizing table with
  | nil => exact (List.append_nil table).symm
  | cons first rest ih =>
    have step (table : Assoc TypeId) : collect table (first :: rest) =
        collect (if table.contains first.1 then table else table ++ [(first.1, ⟨first.2⟩)]) rest :=
      rfl
    have alone : collect [] (first :: rest) = collect [(first.1, ⟨first.2⟩)] rest := step []
    rw [step, alone, ih [(first.1, ⟨first.2⟩)], List.filter_append, List.filter_filter]
    by_cases old : table.contains first.1 = true
    · have hidden : ∀ entry : String × TypeId, (!table.contains entry.1) =
          (!table.contains entry.1 &&
            !Assoc.contains [(first.1, (⟨first.2⟩ : TypeId))] entry.1) := by
        intro entry
        by_cases same : first.1 = entry.1
        · rw [← same, old]
          rfl
        · simp [Assoc.contains, same]
      rw [if_pos old, ih table, List.filter_cons_of_neg (by simp [old]), List.filter_nil,
        List.nil_append, List.filter_congr fun entry _ => hidden entry]
    · have shown : ∀ entry : String × TypeId,
          (!Assoc.contains (table ++ [(first.1, (⟨first.2⟩ : TypeId))]) entry.1) =
          (!table.contains entry.1 &&
            !Assoc.contains [(first.1, (⟨first.2⟩ : TypeId))] entry.1) := by
        intro entry
        rw [Assoc.contains, List.any_append, Bool.not_or]
        rfl
      rw [if_neg old, ih, List.filter_cons_of_pos (by simp [old]), List.filter_nil,
        List.append_assoc, List.filter_congr fun entry _ => shown entry]

/-- Where names are distinct, all nested types are collected. -/
theorem collect_of_nodup {nested : Assoc Nat} (distinct : nested.keys.Nodup) :
    collect [] nested = nested.map fun entry => (entry.1, ⟨entry.2⟩) := by
  induction nested with
  | nil => rfl
  | cons first rest ih =>
    obtain ⟨new, distinct⟩ := List.nodup_cons.1 distinct
    have alone : collect [] (first :: rest) = collect [(first.1, ⟨first.2⟩)] rest := rfl
    have all : (rest.map fun entry => (entry.1, (⟨entry.2⟩ : TypeId))).filter
        (fun entry => !Assoc.contains [(first.1, (⟨first.2⟩ : TypeId))] entry.1) =
        rest.map fun entry => (entry.1, ⟨entry.2⟩) := by
      refine List.filter_eq_self.2 fun entry member => ?_
      obtain ⟨inner, here, rfl⟩ := List.mem_map.1 member
      have other : first.1 ≠ inner.1 := fun same => new (List.mem_map.2 ⟨inner, here, same.symm⟩)
      simpa [Assoc.contains] using other
    rw [alone, collect_eq, ih distinct, all]
    rfl

/-- The types nested in the nearest member of a chain come first, and hide others. -/
theorem scope_cons {t : NumberedType} (distinct : t.nested.keys.Nodup)
    (farther : List NumberedType) :
    scope (t :: farther) = t.nested.map (fun entry => (entry.1, ⟨entry.2⟩)) ++
      (scope farther).filter fun entry => !t.nested.contains entry.1 := by
  have split : scope (t :: farther) =
      collect (collect [] t.nested) (farther.flatMap (·.nested)) := List.foldl_append ..
  have names : ∀ name, Assoc.contains
      (t.nested.map fun entry => (entry.1, (⟨entry.2⟩ : TypeId))) name = t.nested.contains name :=
    fun name => List.any_map ..
  rw [split, collect_eq, collect_of_nodup distinct]
  simp only [names]
  rfl

/-! ### Parts of a complete type -/

/-- What a type has, in terms of its whole chain. -/
structure Takes (r : Resolver) (t : NumberedType) (chain : List NumberedType)
    (type : ElementType) : Prop where
  name : type.name = t.name
  tag : type.tag = Naming.tagName t.name
  isAbstract : type.isAbstract = t.isAbstract
  fields : type.fields.keys = ((chain.findSome? (·.fields)).getD []).eraseDups
  order : type.order = (chain.findSome? (·.order)).getD []
  scope : type.scope = Resolver.scope chain
  resolved : ∀ entry ∈ type.fields, r.field t chain type.scope entry.1 = .ok entry.2

/-- Fields that are found one by one stand under the names that they are found for. -/
theorem keys_of_mapM {find : String → Except Error Field} {names : List String}
    {fields : Assoc Field}
    (listed : names.mapM (fun name => do return (name, ← find name)) = .ok fields) :
    fields.keys = names := by
  have each := forall₂_of_mapM listed
  clear listed
  induction each with
  | nil => rfl
  | cons here _ ih =>
    obtain ⟨field, -, here⟩ := ok_of_bind here
    cases here
    exact congrArg (_ :: ·) ih

theorem takes_of_elementType {r : Resolver} {t : NumberedType} {index : Nat} {type : ElementType}
    {chain : List NumberedType} (chained : r.chain t index = .ok chain)
    (made : r.elementType t index = .ok type) : Takes r t chain type := by
  unfold elementType at made
  obtain ⟨chain, found, made⟩ := ok_of_bind made
  rw [chained] at found
  cases found
  obtain ⟨fields, listed, made⟩ := ok_of_bind made
  cases made
  refine ⟨rfl, rfl, rfl, by rw [Assoc.keys_putAll, keys_of_mapM listed], rfl, rfl,
    fun entry member => ?_⟩
  have inside := (Assoc.mem_putAll member).resolve_left List.not_mem_nil
  obtain ⟨name, made⟩ := exists_of_mem_mapM listed inside
  obtain ⟨field, resolved, made⟩ := ok_of_bind made
  cases made
  exact resolved

theorem slot_of_field {r : Resolver} {t : NumberedType} {chain : List NumberedType}
    {scope : Assoc TypeId} {name : String} {slot : TypeId}
    (resolved : r.field t chain scope name = .ok (.child slot)) :
    (scope.get? name).or ((r.globals.get? name).map TypeId.mk) = some slot := by
  unfold Resolver.field at resolved
  split at resolved
  · cases resolved
  · split at resolved
    · cases resolved
    · split at resolved
      · rename_i found
        cases resolved
        exact found
      · cases resolved

theorem namespace_of_field {r : Resolver} {t : NumberedType} {chain : List NumberedType}
    {scope : Assoc TypeId} {name converted : String} {ns : Option String}
    (resolved : r.field t chain scope name = .ok (.attr converted ns)) :
    ns = chain.findSome? (·.namespaces.get? name) := by
  unfold Resolver.field at resolved
  split at resolved
  · cases resolved
  · split at resolved
    · cases resolved
      rfl
    · split at resolved <;> cases resolved

end Resolver

/-! ### One type after the other -/

namespace CatalogueDecl

/-- With nothing around it, a type has an outermost one of the name as its base. -/
theorem links_outermost {d : CatalogueDecl} {index found : Nat} {base : String}
    (here : (d.table.map fun t => (t.base, t.around))[index]? = some (some base, []))
    (there : d.outermost.get? base = some found) (other : found ≠ index) : d.Links index found := by
  rw [List.getElem?_map, Option.map_eq_some_iff] at here
  obtain ⟨t, here, same⟩ := here
  obtain ⟨based, around⟩ := Prod.ext_iff.1 same
  have alone : t.around ++ [d.outermost] = [] ++ d.outermost :: [] := congrArg (· ++ _) around
  exact ⟨t, base, here, based, [], d.outermost, [], alone, there, other, nofun⟩

theorem keys_outermost (d : CatalogueDecl) : d.outermost.keys = Assoc.keys d.types :=
  keys_numbers 0 d.types

/-- The outermost types that elements can be made of are those that are not abstract. -/
theorem mem_concrete_iff {d : CatalogueDecl} {name : String} {index : Nat} :
    (name, index) ∈ d.concrete ↔
      (name, index) ∈ d.outermost ∧ ∃ t, d.table[index]? = some t ∧ t.isAbstract = false := by
  rw [concrete, List.mem_filter]
  refine and_congr_right fun _ => ?_
  dsimp only
  cases d.table[index]? <;> simp

theorem nodup_outermost {d : CatalogueDecl} (distinct : (Assoc.keys d.types).Nodup) :
    d.outermost.keys.Nodup := by
  rwa [keys_outermost]

theorem nodup_concrete {d : CatalogueDecl} (distinct : (Assoc.keys d.types).Nodup) :
    d.concrete.keys.Nodup :=
  (List.filter_sublist.map _).nodup (nodup_outermost distinct)

namespace Resolves

variable {d : CatalogueDecl} {bases : List (Option Nat)} {c : Catalogue}

theorem global?_eq (h : d.Resolves bases c) (name : String) :
    c.global? name = ((d.resolver bases).globals.get? name).map TypeId.mk := by
  rw [Catalogue.global?, h.globals]
  exact Assoc.get?_map TypeId.mk d.concrete name

theorem global?_eq_some_iff (h : d.Resolves bases c) (distinct : (Assoc.keys d.types).Nodup)
    {name : String} {id : TypeId} :
    c.global? name = some id ↔
      d.outermost.get? name = some id.index ∧
        ∃ t, d.table[id.index]? = some t ∧ t.isAbstract = false := by
  rw [Assoc.get?_eq_some_iff (nodup_outermost distinct), ← mem_concrete_iff,
    ← Assoc.get?_eq_some_iff (nodup_concrete distinct), h.global?_eq, Option.map_eq_some_iff]
  exact ⟨fun ⟨index, there, same⟩ => same ▸ there, fun there => ⟨id.index, there, rfl⟩⟩

theorem base_iff (h : d.Resolves bases c) {index : Nat} {t : NumberedType} {type : ElementType}
    (here : d.table[index]? = some t) (made : (d.resolver bases).elementType t index = .ok type)
    (id : TypeId) : type.base = some id ↔ d.Links index id.index := by
  rw [Resolver.base_of_elementType made, Option.map_eq_some_iff]
  constructor
  · rintro ⟨found, next, rfl⟩
    exact h.links_of_join here next
  · exact fun links => ⟨id.index, h.join_of_links links, rfl⟩

theorem base_eq_none_iff (h : d.Resolves bases c) {index : Nat} {t : NumberedType}
    {type : ElementType} (here : d.table[index]? = some t)
    (made : (d.resolver bases).elementType t index = .ok type) :
    type.base = none ↔ t.base = none := by
  obtain ⟨base, -, resolved⟩ := h.base index t here
  rw [Resolver.base_of_elementType made, h.join_eq here resolved, Option.map_eq_none_iff]
  cases base with
  | none => exact ⟨fun _ => NumberedType.base_of_baseIndex resolved, fun _ => rfl⟩
  | some found =>
    obtain ⟨name, named, -⟩ := NumberedType.sees_of_baseIndex resolved
    simp [named]

/-- The chain of a type is the type and then the chain of its base. -/
theorem chain_cons (h : d.Resolves bases c) {index : Nat} {t : NumberedType}
    (here : d.table[index]? = some t) :
    ∃ farther, (d.resolver bases).chain t index = .ok (t :: farther) ∧
      match (d.resolver bases).bases[index]?.join with
      | none => farther = []
      | some found => ∃ t', d.table[found]? = some t' ∧
        (d.resolver bases).chain t' found = .ok farther := by
  obtain ⟨indices, chained, known⟩ := h.exists_chained here
  rw [known]
  cases chained with
  | last none =>
    rw [none]
    exact ⟨[], by simp [here], rfl⟩
  | @more _ found rest next later =>
    have inside := lt_of_links (h.links_of_join here next)
    obtain ⟨others, chained', known'⟩ := h.exists_chained (List.getElem?_eq_getElem inside)
    rw [next, later.unique chained']
    exact ⟨others.filterMap (d.table[·]?), by simp [here], _, List.getElem?_eq_getElem inside,
      known'⟩

theorem chain_of_walk (h : d.Resolves bases c) {id : TypeId} {ids : List TypeId}
    (walk : c.Chain id ids) : ∀ t, d.table[id.index]? = some t →
      (d.resolver bases).chain t id.index = .ok (ids.filterMap (d.table[·.index]?)) := by
  induction walk with
  | @last id type known none =>
    intro t here
    obtain ⟨type', known', made⟩ := h.type _ t here
    rw [known] at known'
    cases known'
    obtain ⟨farther, chained, rest⟩ := h.chain_cons here
    rw [Resolver.base_of_elementType made, Option.map_eq_none_iff] at none
    rw [none] at rest
    rw [chained, rest]
    simp [here]
  | @more id base type ids known next _ ih =>
    intro t here
    obtain ⟨type', known', made⟩ := h.type _ t here
    rw [known] at known'
    cases known'
    obtain ⟨farther, chained, rest⟩ := h.chain_cons here
    rw [Resolver.base_of_elementType made, Option.map_eq_some_iff] at next
    obtain ⟨found, next, rfl⟩ := next
    rw [next] at rest
    obtain ⟨t', there, chained'⟩ := rest
    have later := ih t' there
    rw [chained'] at later
    cases later
    rw [chained]
    simp [here]

/-- What the chain of the base comes to is what the base has in the catalogue. -/
theorem inherited_eq (h : d.Resolves bases c) {index : Nat} {t : NumberedType} {type : ElementType}
    {farther : List NumberedType} (here : d.table[index]? = some t)
    (made : (d.resolver bases).elementType t index = .ok type)
    (chained : (d.resolver bases).chain t index = .ok (t :: farther)) :
    (c.inherited type.base (·.fields.keys)).getD [] =
        ((farther.findSome? (·.fields)).getD []).eraseDups ∧
      (c.inherited type.base (·.order)).getD [] = (farther.findSome? (·.order)).getD [] ∧
      (c.inherited type.base (·.scope)).getD [] = Resolver.scope farther := by
  obtain ⟨farther', known, rest⟩ := h.chain_cons here
  rw [chained] at known
  cases known
  rw [Resolver.base_of_elementType made]
  cases next : (d.resolver bases).bases[index]?.join with
  | none =>
    rw [next] at rest
    rw [rest]
    exact ⟨rfl, rfl, rfl⟩
  | some found =>
    rw [next] at rest
    obtain ⟨t', there, chained'⟩ := rest
    obtain ⟨type', known, made'⟩ := h.type found t' there
    have takes := Resolver.takes_of_elementType chained' made'
    have part {α : Type} (f : ElementType → α) :
        c.inherited (some ⟨found⟩) f = some (f type') := by
      rw [Catalogue.inherited, Option.bind_some, known, Option.map_some]
    simp only [Option.map_some, part, Option.getD_some]
    exact ⟨takes.fields, takes.order, takes.scope⟩

theorem completes (h : d.Resolves bases c)
    (distinct : ∀ t ∈ d.table, t.nested.keys.Nodup) {index : Nat} {t : NumberedType}
    (here : d.table[index]? = some t) :
    ∃ type, c.get? ⟨index⟩ = some type ∧ Completes d c index t type := by
  obtain ⟨type, known, made⟩ := h.type index t here
  obtain ⟨farther, chained, -⟩ := h.chain_cons here
  have takes := Resolver.takes_of_elementType chained made
  obtain ⟨fields, order, scope⟩ := h.inherited_eq here made chained
  refine ⟨type, known, {
    name := takes.name
    tag := takes.tag
    isAbstract := takes.isAbstract
    base := h.base_iff here made
    noBase := h.base_eq_none_iff here made
    fields := ?_
    order := ?_
    scope := ?_
    kinds := Resolver.elementType_named made
    slots := fun name slot member => ?_
    namespaces := fun name converted ns member ids walk => ?_ }⟩
  · rw [takes.fields, List.findSome?_cons]
    cases t.fields with
    | none => exact fields.symm
    | some names => rfl
  · rw [takes.order, List.findSome?_cons]
    cases t.order with
    | none => exact order.symm
    | some tags => rfl
  · rw [takes.scope, scope]
    exact Resolver.scope_cons (distinct t (List.mem_of_getElem? here)) farther
  · rw [h.global?_eq]
    exact Resolver.slot_of_field (takes.resolved _ member)
  · have whole := h.chain_of_walk walk t here
    rw [chained, Except.ok.injEq] at whole
    rw [Resolver.namespace_of_field (takes.resolved _ member), whole, ← List.head?_filterMap,
      List.filterMap_filterMap, List.head?_filterMap]

end Resolves

end CatalogueDecl

namespace Catalogue

theorem flattens_of_ofDecl {d : CatalogueDecl} {c : Catalogue}
    (distinct : (Assoc.keys d.types).Nodup ∧ ∀ entry ∈ d.types, entry.2.Distinct)
    (done : ofDecl d = .ok c) : c.Flattens d := by
  obtain ⟨bases, resolves⟩ := CatalogueDecl.exists_resolves done
  have nested : ∀ t ∈ d.table, t.nested.keys.Nodup := nodup_nestedAll [] 0 d.types distinct.2
  refine {
    closed := closed_of_ofDecl done
    bases := fun id type known base based => ?_
    chains := fun id has => resolves.exists_chain has
    outermost := d.keys_outermost
    listed := d.holds
    size := ⟨resolves.size.trans d.length_table, d.length_table⟩
    globals := fun name id => resolves.global?_eq_some_iff distinct.1
    types := fun index t here => resolves.completes nested here }
  obtain ⟨t, here⟩ := resolves.exists_of_has ⟨type, known⟩
  obtain ⟨type', known', complete⟩ := resolves.completes nested here
  rw [known] at known'
  cases known'
  rw [has_iff, resolves.size]
  exact CatalogueDecl.lt_of_links ((complete.base base).1 based)

/-- The catalogue of a data file is what its declarations make: it refers only to types that it has,
bases come to an end, and every type is complete. Where bases go round in a circle, the data file is
refused. -/
theorem ofText_flattens (text : String) :
    (∀ c, ofText text = .ok c → ∃ root d, Json.ofText text = .ok root ∧
      CatalogueDecl.ofJson root = .ok d ∧ c.Flattens d) ∧
    ∀ root d, Json.ofText text = .ok root → CatalogueDecl.ofJson root = .ok d →
      ∀ index, Relation.TransGen d.Links index index → ∃ e, ofText text = .error e := by
  constructor
  · intro c read
    unfold ofText at read
    obtain ⟨root, parsed, read⟩ := ok_of_bind read
    obtain ⟨d, declared, done⟩ := ok_of_bind read
    have distinct := CatalogueDecl.distinct_of_ofJson (Json.distinct_of_ofText parsed) declared
    exact ⟨root, d, parsed, declared, flattens_of_ofDecl distinct done⟩
  · intro root d parsed declared index circle
    obtain ⟨e, failed⟩ := error_of_circle circle
    refine ⟨e, ?_⟩
    rw [ofText, parsed]
    change CatalogueDecl.ofJson root >>= ofDecl = .error e
    rw [declared]
    exact failed

/-- A data file with a part that has its fields and the type nested in it from a shared one. -/
def derivedText : String :=
  "\x7b\"types\": \x7b\"Shared\": \x7b\"abstract\": true, \"fields\": [\"id\", \"Note\"], " ++
    "\"nested\": \x7b\"Note\": \x7b\"fields\": [\"content\"]\x7d\x7d\x7d, " ++
    "\"Part\": \x7b\"base\": \"Shared\", \"order\": [\"note\"]\x7d\x7d\x7d"

/-- A data file with two types that are each other's base. -/
def circularText : String :=
  "\x7b\"types\": \x7b\"A\": \x7b\"base\": \"B\"\x7d, \"B\": \x7b\"base\": \"A\"\x7d\x7d\x7d"

/-- What is inherited, and what is refused. -/
theorem ofText_flattens_derived :
    (∃ c d, ofText derivedText = .ok c ∧ c.Flattens d ∧
      c.globals = [("Part", ⟨2⟩)] ∧
      c.types.toList.map (fun type => (type.name, type.fields.keys, type.scope, type.base)) =
        [("Shared", ["id", "Note"], [("Note", ⟨1⟩)], none), ("Note", ["content"], [], none),
          ("Part", ["id", "Note"], [("Note", ⟨1⟩)], some ⟨0⟩)]) ∧
    ∃ e, ofText circularText = .error e := by
  constructor
  · have known : ((ofText derivedText).toOption.map fun c => decide (
        c.globals = [("Part", ⟨2⟩)] ∧
        c.types.toList.map (fun type => (type.name, type.fields.keys, type.scope, type.base)) =
          [("Shared", ["id", "Note"], [("Note", ⟨1⟩)], none), ("Note", ["content"], [], none),
            ("Part", ["id", "Note"], [("Note", ⟨1⟩)], some ⟨0⟩)])) = some true := by
      decide +kernel
    cases read : ofText derivedText with
    | error e =>
      rw [read] at known
      cases known
    | ok c =>
      rw [read] at known
      obtain ⟨_, d, -, -, flattens⟩ := (ofText_flattens derivedText).1 c read
      exact ⟨c, d, rfl, flattens, of_decide_eq_true (Option.some.inj known)⟩
  · have known : ((Json.ofText circularText >>= CatalogueDecl.ofJson).toOption.map fun d => decide (
        d.outermost = [("A", 0), ("B", 1)] ∧
        d.table.map (fun t => (t.base, t.around)) = [(some "B", []), (some "A", [])])) =
        some true := by
      decide +kernel
    cases parsed : Json.ofText circularText with
    | error e =>
      rw [parsed] at known
      cases known
    | ok root =>
      rw [parsed] at known
      change (CatalogueDecl.ofJson root).toOption.map _ = _ at known
      cases declared : CatalogueDecl.ofJson root with
      | error e =>
        rw [declared] at known
        cases known
      | ok d =>
        rw [declared] at known
        obtain ⟨outermost, table⟩ := of_decide_eq_true (Option.some.inj known)
        have first : d.Links 0 1 := CatalogueDecl.links_outermost (by rw [table]; rfl)
          (by rw [outermost]; rfl) (by decide)
        have second : d.Links 1 0 := CatalogueDecl.links_outermost (by rw [table]; rfl)
          (by rw [outermost]; rfl) (by decide)
        exact (ofText_flattens circularText).2 root d parsed declared 0
          (.tail (.single first) second)

end Catalogue

end ScoreScript
