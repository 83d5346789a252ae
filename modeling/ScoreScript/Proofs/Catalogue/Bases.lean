import Mathlib.Logic.Relation
import ScoreScript.Proofs.Catalogue.Closed
import ScoreScript.Proofs.Json.Spelling

/-!
The table of declarations and the bases of types. A data file declares types inside types; the table
lists them all, each under a number, and knows for each the numbers of the types nested in it and of
those in the types around it. A base is named, and the name means the nearest type that has it other
than the type itself. From a type one comes to its base, to the base of that and so on, until there
is none, unless the bases go round in a circle; then there is no catalogue. Main statements:
`CatalogueDecl.holds`, `CatalogueDecl.distinct_of_ofJson`, by which the names that a type declares
are distinct, `Catalogue.exists_chain` and `Catalogue.error_of_circle`.
-/

namespace ScoreScript

/-- The table has a declaration under a number, and the declarations nested in it under the numbers
that it knows them by. -/
inductive Holds (table : List NumberedType) :
    List (Assoc Nat) → String → Nat → TypeDecl → Prop where
  | mk {around : List (Assoc Nat)} {name : String} {index : Nat} {d : TypeDecl} {inside : Assoc Nat}
    (here : table[index]? =
      some ⟨name, d.fields, d.namespaces, d.order, inside, d.base, d.isAbstract, around⟩)
    (names : Assoc.keys inside = Assoc.keys d.nested)
    (nested : ∀ (i : Nat) (inner : String × TypeDecl) (number : String × Nat),
      d.nested[i]? = some inner → inside[i]? = some number →
        Holds table (inside :: around) inner.1 number.2 inner.2) :
    Holds table around name index d

/-- The names of the types nested in a type are distinct, and so inside each of them. -/
inductive TypeDecl.Distinct : TypeDecl → Prop where
  | mk {d : TypeDecl} (names : (Assoc.keys d.nested).Nodup)
    (inside : ∀ entry ∈ d.nested, entry.2.Distinct) : d.Distinct

namespace CatalogueDecl

/-- All declarations, in the order of their numbers. -/
def table (d : CatalogueDecl) : List NumberedType :=
  numberedAll [] 0 d.types

/-- The numbers of the outermost declarations. -/
def outermost (d : CatalogueDecl) : Assoc Nat :=
  numbers 0 d.types

end CatalogueDecl

theorem keys_numbers (next : Nat) (decls : List (String × TypeDecl)) :
    Assoc.keys (numbers next decls) = Assoc.keys decls := by
  induction decls generalizing next with
  | nil => rfl
  | cons first rest ih =>
    rw [numbers]
    exact congrArg (first.1 :: ·) (ih (next + first.2.count))

/-! ### The numbers lead to the declarations -/

/-- A stretch of a table, from a number on. -/
def IsStretch (table : List NumberedType) (index : Nat) (part : List NumberedType) : Prop :=
  ∀ i t, part[i]? = some t → table[index + i]? = some t

namespace IsStretch

variable {table first second : List NumberedType} {index : Nat} {t : NumberedType}

theorem head (h : IsStretch table index (t :: first)) : table[index]? = some t :=
  h 0 t rfl

theorem tail (h : IsStretch table index (t :: first)) : IsStretch table (index + 1) first := by
  intro i t' there
  rw [Nat.add_assoc, Nat.add_comm 1]
  exact h (i + 1) t' there

theorem left (h : IsStretch table index (first ++ second)) : IsStretch table index first := by
  intro i t' there
  have inside := (List.getElem?_eq_some_iff.1 there).1
  exact h i t' (by rw [List.getElem?_append_left inside, there])

theorem right (h : IsStretch table index (first ++ second)) :
    IsStretch table (index + first.length) second := by
  intro i t' there
  rw [Nat.add_assoc]
  exact h (first.length + i) t' (by
    rw [List.getElem?_append_right (Nat.le_add_right ..), Nat.add_sub_cancel_left, there])

end IsStretch

mutual

theorem TypeDecl.holds (table : List NumberedType) (around : List (Assoc Nat)) (name : String)
    (index : Nat) : (d : TypeDecl) → IsStretch table index (d.numbered around name index) →
      Holds table around name index d
  | ⟨fields, namespaces, order, nested, base, isAbstract⟩, listed => by
    rw [TypeDecl.numbered] at listed
    exact .mk listed.head (keys_numbers (index + 1) nested)
      (holdsAll table (numbers (index + 1) nested :: around) (index + 1) nested listed.tail)

theorem holdsAll (table : List NumberedType) (around : List (Assoc Nat)) (next : Nat) :
    (decls : List (String × TypeDecl)) → IsStretch table next (numberedAll around next decls) →
      ∀ (i : Nat) (decl : String × TypeDecl) (number : String × Nat), decls[i]? = some decl →
        (numbers next decls)[i]? = some number → Holds table around decl.1 number.2 decl.2
  | [], _, i, decl, number, there, _ => by cases there
  | (name, type) :: rest, listed, 0, decl, number, there, numbered => by
    cases there
    cases numbered
    rw [numberedAll] at listed
    exact type.holds table around name next listed.left
  | (name, type) :: rest, listed, i + 1, decl, number, there, numbered => by
    rw [numberedAll] at listed
    have later := listed.right
    rw [(type.numbered_spec around name next).1] at later
    exact holdsAll table around (next + type.count) rest later i decl number there numbered

end

/-- The table has every outermost declaration under its number, and so what is nested in it. -/
theorem CatalogueDecl.holds (d : CatalogueDecl) :
    ∀ (i : Nat) (decl : String × TypeDecl) (number : String × Nat), d.types[i]? = some decl →
      d.outermost[i]? = some number → Holds d.table [] decl.1 number.2 decl.2 :=
  holdsAll d.table [] 0 d.types fun i t there => by rwa [Nat.zero_add]

/-! ### Distinct names -/

theorem keys_of_ofEntries {entries : Assoc Json} {types : List (String × TypeDecl)}
    (read : TypeDecl.ofEntries entries = .ok types) : Assoc.keys types = Assoc.keys entries := by
  induction entries generalizing types with
  | nil =>
    rw [TypeDecl.ofEntries] at read
    cases read
    rfl
  | cons entry rest ih =>
    rw [TypeDecl.ofEntries] at read
    obtain ⟨type, -, read⟩ := ok_of_bind read
    obtain ⟨more, later, read⟩ := ok_of_bind read
    cases read
    exact congrArg (entry.1 :: ·) (ih later)

mutual

theorem TypeDecl.distinct_of_ofJson (name : String) :
    (v : Json) → (d : TypeDecl) → v.Distinct → TypeDecl.ofJson name v = .ok d → d.Distinct
  | .object entries, d, distinct, read => by
    rw [TypeDecl.ofJson] at read
    obtain ⟨outer, -, read⟩ := ok_of_bind read
    obtain ⟨nested, inner, read⟩ := ok_of_bind read
    cases read
    cases distinct with
    | object keys inside =>
      obtain ⟨names, each⟩ := TypeDecl.distinct_of_readNested name entries nested inside inner
      exact .mk names each
  | .null, _, _, read | .bool _, _, _, read | .number _, _, _, read | .string _, _, _, read
  | .array _, _, _, read => by
    rw [TypeDecl.ofJson] at read
    · cases read
    · exact nofun

theorem TypeDecl.distinct_of_readNested (name : String) :
    (entries : List (String × Json)) → (nested : List (String × TypeDecl)) →
      (∀ entry ∈ entries, entry.2.Distinct) → TypeDecl.readNested name entries = .ok nested →
      (Assoc.keys nested).Nodup ∧ ∀ entry ∈ nested, entry.2.Distinct
  | [], nested, _, read => by
    rw [TypeDecl.readNested] at read
    cases read
    exact ⟨.nil, nofun⟩
  | entry :: rest, nested, inside, read => by
    obtain ⟨here, later⟩ := List.forall_mem_cons.1 inside
    unfold TypeDecl.readNested at read
    split at read
    case h_1 heq => cases heq
    case h_2 heq =>
      cases heq
      cases here with
      | object keys each => exact TypeDecl.distinct_of_ofEntries _ nested keys each read
    case h_3 => cases read
    case h_4 heq =>
      cases heq
      exact TypeDecl.distinct_of_readNested name rest nested later read

theorem TypeDecl.distinct_of_ofEntries :
    (entries : List (String × Json)) → (types : List (String × TypeDecl)) →
      (Assoc.keys entries).Nodup → (∀ entry ∈ entries, entry.2.Distinct) →
      TypeDecl.ofEntries entries = .ok types →
      (Assoc.keys types).Nodup ∧ ∀ entry ∈ types, entry.2.Distinct
  | [], types, _, _, read => by
    rw [TypeDecl.ofEntries] at read
    cases read
    exact ⟨.nil, nofun⟩
  | (name, v) :: rest, types, keys, inside, read => by
    have names := keys_of_ofEntries read
    obtain ⟨here, later⟩ := List.forall_mem_cons.1 inside
    rw [TypeDecl.ofEntries] at read
    obtain ⟨type, first, read⟩ := ok_of_bind read
    obtain ⟨more, others, read⟩ := ok_of_bind read
    cases read
    refine ⟨by rw [names]; exact keys, List.forall_mem_cons.2 ⟨?_, ?_⟩⟩
    · exact TypeDecl.distinct_of_ofJson name v type here first
    · exact (TypeDecl.distinct_of_ofEntries rest more (List.nodup_cons.1 keys).2 later others).2

end

namespace CatalogueDecl

/-- The names that are declared side by side are distinct. -/
theorem distinct_of_ofJson {root : Json} {d : CatalogueDecl} (distinct : root.Distinct)
    (read : ofJson root = .ok d) :
    (Assoc.keys d.types).Nodup ∧ ∀ entry ∈ d.types, entry.2.Distinct := by
  unfold ofJson at read
  obtain ⟨doctypes, -, read⟩ := ok_of_bind read
  split at read
  · rename_i entries found
    obtain ⟨types, there, object⟩ := Option.bind_eq_some_iff.1 found
    obtain ⟨types, done, read⟩ := ok_of_bind read
    cases read
    have inner := distinct.of_get? there
    cases inner with
    | object keys inside =>
      cases object
      exact TypeDecl.distinct_of_ofEntries entries types keys inside done
    | _ => cases object
  · cases read

end CatalogueDecl

mutual

theorem TypeDecl.nodup_nested (around : List (Assoc Nat)) (name : String) (index : Nat) :
    (d : TypeDecl) → d.Distinct →
      ∀ t ∈ d.numbered around name index, (Assoc.keys t.nested).Nodup
  | ⟨fields, namespaces, order, nested, base, isAbstract⟩, .mk names inside => by
    rw [TypeDecl.numbered]
    refine List.forall_mem_cons.2 ⟨?_, ?_⟩
    · rw [keys_numbers]
      exact names
    · exact nodup_nestedAll _ _ nested inside

theorem nodup_nestedAll (around : List (Assoc Nat)) (next : Nat) :
    (decls : List (String × TypeDecl)) → (∀ entry ∈ decls, entry.2.Distinct) →
      ∀ t ∈ numberedAll around next decls, (Assoc.keys t.nested).Nodup
  | [], _ => nofun
  | (name, type) :: rest, inside => by
    obtain ⟨here, later⟩ := List.forall_mem_cons.1 inside
    rw [numberedAll]
    exact List.forall_mem_append.2 ⟨type.nodup_nested around name next here,
      nodup_nestedAll around (next + type.count) rest later⟩

end

/-! ### Bases -/

namespace NumberedType

/-- The name of a base leads to another type. It is among those nested in one of the types around,
or else outermost, and no nearer table has the name for a type but this one. -/
def Sees (t : NumberedType) (outermost : Assoc Nat) (index : Nat) (base : String) (found : Nat) :
    Prop :=
  ∃ nearer names farther, t.around ++ [outermost] = nearer ++ names :: farther ∧
    names.get? base = some found ∧ found ≠ index ∧
      ∀ others ∈ nearer, ∀ other, others.get? base = some other → other = index

variable {t : NumberedType} {outermost : Assoc Nat} {index found : Nat} {base : String}

theorem resolveBase?_eq_some_iff :
    t.resolveBase? outermost index base = some found ↔ t.Sees outermost index base found := by
  unfold resolveBase? Sees
  rw [List.findSome?_eq_some_iff]
  simp only [Option.filter_eq_some_iff, Option.filter_eq_none_iff, decide_eq_true_eq, not_not,
    and_assoc]

theorem baseIndex_of_sees (named : t.base = some base) (sees : t.Sees outermost index base found) :
    t.baseIndex outermost index = .ok (some found) := by
  rw [baseIndex, named]
  dsimp only
  rw [resolveBase?_eq_some_iff.2 sees]

/-- The number of a base is what its name leads to. -/
theorem sees_of_baseIndex (resolved : t.baseIndex outermost index = .ok (some found)) :
    ∃ base, t.base = some base ∧ t.Sees outermost index base found := by
  unfold baseIndex at resolved
  split at resolved
  · cases resolved
  · rename_i base named
    split at resolved
    · rename_i there
      cases resolved
      exact ⟨base, named, resolveBase?_eq_some_iff.1 there⟩
    · cases resolved

theorem base_of_baseIndex (resolved : t.baseIndex outermost index = .ok none) : t.base = none := by
  unfold baseIndex at resolved
  split at resolved
  · assumption
  · split at resolved <;> cases resolved

end NumberedType

/-! ### Walks along bases -/

/-- A number, the one after it, and so on, up to a number that none comes after. -/
inductive Chained (bases : Array (Option Nat)) : Nat → List Nat → Prop where
  | last {index : Nat} (none : bases[index]?.join = none) : Chained bases index [index]
  | more {index next : Nat} {rest : List Nat} (here : bases[index]?.join = some next)
    (later : Chained bases next rest) : Chained bases index (index :: rest)

namespace Chained

variable {bases : Array (Option Nat)} {index : Nat} {indices : List Nat}

theorem of_baseChain? {before : List Nat} {room : Nat}
    (found : baseChain? bases before room index = some indices) :
    Chained bases index indices := by
  induction room generalizing before index indices with
  | zero =>
    rw [baseChain?] at found
    cases found
  | succ room ih =>
    rw [baseChain?] at found
    split at found
    · rename_i none
      cases found
      exact .last none
    · rename_i next here
      split at found
      · cases found
      · obtain ⟨rest, later, rfl⟩ := Option.map_eq_some_iff.1 found
        exact .more here (ih later)

theorem unique {others : List Nat} (first : Chained bases index indices)
    (second : Chained bases index others) : indices = others := by
  induction first generalizing others with
  | last none =>
    cases second with
    | last => rfl
    | more here => rw [none] at here; cases here
  | more here _ ih =>
    cases second with
    | last none => rw [none] at here; cases here
    | more here' later =>
      rw [here] at here'
      cases here'
      rw [ih later]

/-- A walk that ends does not go round in a circle: what a circle leads on to is on the circle. -/
theorem not_circle (chained : Chained bases index indices) :
    ¬ Relation.TransGen (fun i j => bases[i]?.join = some j) index index := by
  induction chained with
  | last none =>
    intro circle
    obtain ⟨_, first, -⟩ := Relation.TransGen.head'_iff.1 circle
    rw [none] at first
    cases first
  | @more index next _ here _ ih =>
    intro circle
    obtain ⟨after, first, back⟩ := Relation.TransGen.head'_iff.1 circle
    rw [here] at first
    cases first
    exact ih (.tail' back here)

end Chained

/-! ### Resolution as a whole -/

theorem getElem?_of_mapM {α β ε : Type} {f : α → Except ε β} {xs : List α} {ys : List β}
    (done : xs.mapM f = .ok ys) {i : Nat} {x : α} (here : xs[i]? = some x) :
    ∃ y, ys[i]? = some y ∧ f x = .ok y := by
  have each := forall₂_of_mapM done
  clear done
  induction each generalizing i with
  | nil => cases here
  | cons first _ ih =>
    cases i with
    | zero =>
      cases here
      exact ⟨_, rfl, first⟩
    | succ i => exact ih here

namespace CatalogueDecl

/-- One type has another as its base. -/
def Links (d : CatalogueDecl) (index found : Nat) : Prop :=
  ∃ t base, d.table[index]? = some t ∧ t.base = some base ∧ t.Sees d.outermost index base found

/-- The outermost types that elements can be made of. -/
def concrete (d : CatalogueDecl) : Assoc Nat :=
  d.outermost.filter fun (_, index) =>
    match d.table[index]? with
    | some type => !type.isAbstract
    | none => false

def resolver (d : CatalogueDecl) (bases : List (Option Nat)) : Resolver :=
  ⟨d.table.toArray, bases.toArray, d.concrete⟩

/-- What resolution finds for each type: the number of its base, and the type with all that it takes
from there. -/
structure Resolves (d : CatalogueDecl) (bases : List (Option Nat)) (c : Catalogue) : Prop where
  globals : c.globals = d.concrete.map fun (name, index) => (name, ⟨index⟩)
  size : c.size = d.table.length
  base : ∀ (index : Nat) (t : NumberedType), d.table[index]? = some t →
    ∃ base, bases[index]? = some base ∧ t.baseIndex d.outermost index = .ok base
  type : ∀ (index : Nat) (t : NumberedType), d.table[index]? = some t →
    ∃ type, c.get? ⟨index⟩ = some type ∧ (d.resolver bases).elementType t index = .ok type

theorem exists_resolves {d : CatalogueDecl} {c : Catalogue} (done : Catalogue.ofDecl d = .ok c) :
    ∃ bases, d.Resolves bases c := by
  unfold Catalogue.ofDecl at done
  obtain ⟨bases, based, done⟩ := ok_of_bind done
  obtain ⟨types, complete, done⟩ := ok_of_bind done
  cases done
  refine ⟨bases, rfl, ?_, fun index t here => ?_, fun index t here => ?_⟩
  · rw [Catalogue.size, List.size_toArray, ← (forall₂_of_mapM complete).length_eq,
      List.length_zipIdx]
    rfl
  all_goals
    have numbered : d.table.zipIdx[index]? = some (t, index) := by
      rw [List.getElem?_zipIdx, here, Option.map_some, Nat.zero_add]
  · exact getElem?_of_mapM based numbered
  · obtain ⟨type, there, made⟩ := getElem?_of_mapM complete numbered
    exact ⟨type, by rw [Catalogue.get?, List.getElem?_toArray, there], made⟩

namespace Resolves

variable {d : CatalogueDecl} {bases : List (Option Nat)} {c : Catalogue}

theorem join_eq (h : d.Resolves bases c) {index : Nat} {t : NumberedType} {base : Option Nat}
    (here : d.table[index]? = some t) (resolved : t.baseIndex d.outermost index = .ok base) :
    (d.resolver bases).bases[index]?.join = base := by
  obtain ⟨base', there, resolved'⟩ := h.base index t here
  rw [resolved] at resolved'
  cases resolved'
  rw [resolver, List.getElem?_toArray, there, Option.join_some]

theorem join_of_links (h : d.Resolves bases c) {index found : Nat} (links : d.Links index found) :
    (d.resolver bases).bases[index]?.join = some found := by
  obtain ⟨t, base, here, named, sees⟩ := links
  exact h.join_eq here (NumberedType.baseIndex_of_sees named sees)

/-- The walk from every type is known. -/
theorem exists_chained (h : d.Resolves bases c) {index : Nat} {t : NumberedType}
    (here : d.table[index]? = some t) :
    ∃ indices, Chained (d.resolver bases).bases index indices ∧
      (d.resolver bases).chain t index = .ok (indices.filterMap (d.table[·]?)) := by
  obtain ⟨type, -, made⟩ := h.type index t here
  unfold Resolver.elementType at made
  obtain ⟨chain, chained, -⟩ := ok_of_bind made
  have known := chained
  unfold Resolver.chain at chained
  split at chained
  · rename_i indices found
    cases chained
    refine ⟨indices, .of_baseChain? found, known.trans ?_⟩
    simp only [resolver, List.getElem?_toArray]
  · cases chained

theorem not_circle (h : d.Resolves bases c) {index : Nat} :
    ¬ Relation.TransGen d.Links index index := by
  intro circle
  obtain ⟨_, ⟨t, _, here, -⟩, -⟩ := Relation.TransGen.head'_iff.1 circle
  obtain ⟨indices, chained, -⟩ := h.exists_chained here
  exact chained.not_circle
    (Relation.TransGen.mono (fun _ _ links => h.join_of_links links) _ _ circle)

end Resolves

end CatalogueDecl

/-! ### The numbers of bases are numbers of types -/

mutual

/-- The types around a type, and so those that it can have as bases, have places in the table. -/
theorem TypeDecl.around_numbered {size : Nat} (around : List (Assoc Nat)) (name : String)
    (index : Nat) (outer : ∀ names ∈ around, ∀ entry ∈ names, entry.2 < size) :
    (d : TypeDecl) → index + d.count ≤ size →
      ∀ t ∈ d.numbered around name index, ∀ names ∈ t.around, ∀ entry ∈ names, entry.2 < size
  | ⟨fields, namespaces, order, nested, base, isAbstract⟩, room => by
    rw [TypeDecl.count] at room
    rw [TypeDecl.numbered]
    refine List.forall_mem_cons.2 ⟨outer, ?_⟩
    refine around_numberedAll _ (index + 1) (List.forall_mem_cons.2 ⟨?_, outer⟩) nested (by omega)
    intro entry member
    have := (numbers_range (index + 1) nested entry member).2
    omega

theorem around_numberedAll {size : Nat} (around : List (Assoc Nat)) (next : Nat)
    (outer : ∀ names ∈ around, ∀ entry ∈ names, entry.2 < size) :
    (decls : List (String × TypeDecl)) → next + countAll decls ≤ size →
      ∀ t ∈ numberedAll around next decls, ∀ names ∈ t.around, ∀ entry ∈ names, entry.2 < size
  | [], _ => nofun
  | (name, type) :: rest, room => by
    rw [countAll] at room
    rw [numberedAll]
    exact List.forall_mem_append.2 ⟨type.around_numbered around name next outer (by omega),
      around_numberedAll around (next + type.count) outer rest (by omega)⟩

end

namespace CatalogueDecl

variable {d : CatalogueDecl} {index found : Nat}

theorem length_table (d : CatalogueDecl) : d.table.length = countAll d.types :=
  (numberedAll_spec [] 0 d.types).1

theorem lt_of_mem_outermost (d : CatalogueDecl) :
    ∀ entry ∈ d.outermost, entry.2 < d.table.length := by
  intro entry member
  have := (numbers_range 0 d.types entry member).2
  rw [length_table]
  omega

theorem lt_of_links (links : d.Links index found) : found < d.table.length := by
  obtain ⟨t, base, here, -, nearer, names, farther, split, there, -, -⟩ := links
  have around : ∀ names ∈ t.around, ∀ entry ∈ names, entry.2 < d.table.length :=
    around_numberedAll [] 0 nofun d.types (by rw [length_table]; omega) t
      (List.mem_of_getElem? here)
  have member : names ∈ t.around ++ [d.outermost] := by
    rw [split]
    exact List.mem_append_right nearer List.mem_cons_self
  rcases List.mem_append.1 member with inner | outer
  · exact around names inner _ (Assoc.mem_of_get? there)
  · rw [List.mem_singleton.1 outer] at there
    exact d.lt_of_mem_outermost _ (Assoc.mem_of_get? there)

end CatalogueDecl

/-! ### Walks in the catalogue -/

theorem Resolver.base_of_elementType {r : Resolver} {t : NumberedType} {index : Nat}
    {type : ElementType} (made : r.elementType t index = .ok type) :
    type.base = (r.bases[index]?.join).map TypeId.mk := by
  unfold elementType at made
  obtain ⟨chain, -, made⟩ := ok_of_bind made
  obtain ⟨fields, -, made⟩ := ok_of_bind made
  cases made
  rfl

namespace Catalogue

/-- A type, its base, the base of that, and so on, up to a type that has none. -/
inductive Chain (c : Catalogue) : TypeId → List TypeId → Prop where
  | last {id : TypeId} {type : ElementType} (here : c.get? id = some type)
    (none : type.base = none) : Chain c id [id]
  | more {id base : TypeId} {type : ElementType} {rest : List TypeId}
    (here : c.get? id = some type) (next : type.base = some base) (later : Chain c base rest) :
    Chain c id (id :: rest)

end Catalogue

namespace CatalogueDecl.Resolves

variable {d : CatalogueDecl} {bases : List (Option Nat)} {c : Catalogue}

/-- The types of the catalogue are those of the table. -/
theorem exists_of_has (h : d.Resolves bases c) {id : TypeId} (has : c.Has id) :
    ∃ t, d.table[id.index]? = some t := by
  rw [Catalogue.has_iff, h.size] at has
  exact ⟨_, List.getElem?_eq_getElem has⟩

theorem links_of_join (h : d.Resolves bases c) {index found : Nat} {t : NumberedType}
    (here : d.table[index]? = some t)
    (next : (d.resolver bases).bases[index]?.join = some found) : d.Links index found := by
  obtain ⟨base, -, resolved⟩ := h.base index t here
  rw [h.join_eq here resolved] at next
  cases next
  obtain ⟨name, named, sees⟩ := NumberedType.sees_of_baseIndex resolved
  exact ⟨t, name, here, named, sees⟩

theorem exists_chain (h : d.Resolves bases c) {id : TypeId} (has : c.Has id) :
    ∃ ids, c.Chain id ids := by
  obtain ⟨index⟩ := id
  obtain ⟨t, here⟩ : ∃ t, d.table[index]? = some t := h.exists_of_has has
  obtain ⟨indices, chained, -⟩ := h.exists_chained here
  clear has
  induction chained generalizing t with
  | last none =>
    obtain ⟨type, known, made⟩ := h.type _ t here
    have based := Resolver.base_of_elementType made
    rw [none] at based
    exact ⟨_, .last known based⟩
  | @more index found _ next _ ih =>
    obtain ⟨type, known, made⟩ := h.type _ t here
    have based := Resolver.base_of_elementType made
    rw [next] at based
    have inside := lt_of_links (h.links_of_join here next)
    obtain ⟨ids, later⟩ := ih _ (List.getElem?_eq_getElem inside)
    exact ⟨_, .more known based later⟩

end CatalogueDecl.Resolves

namespace Catalogue

variable {d : CatalogueDecl} {c : Catalogue}

/-- The walk over the bases of a type ends. -/
theorem exists_chain (done : ofDecl d = .ok c) {id : TypeId} (has : c.Has id) :
    ∃ ids, c.Chain id ids := by
  obtain ⟨bases, resolves⟩ := CatalogueDecl.exists_resolves done
  exact resolves.exists_chain has

/-- Where bases go round in a circle there is no catalogue. -/
theorem error_of_circle {index : Nat} (circle : Relation.TransGen d.Links index index) :
    ∃ e, ofDecl d = .error e := by
  cases done : ofDecl d with
  | error e => exact ⟨e, rfl⟩
  | ok c =>
    obtain ⟨bases, resolves⟩ := CatalogueDecl.exists_resolves done
    exact absurd circle resolves.not_circle

end Catalogue

end ScoreScript
