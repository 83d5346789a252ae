import ScoreScript.Proofs.Assoc
import ScoreScript.Proofs.Catalogue.Closed
import ScoreScript.Run.Basic
import ScoreScript.Script.Syntax

/-!
Scopes of names. What an open element binds stands behind the names that were known before, so it
hides none of them, and taking it away again leaves the names as they were. A block of statements
stores element markers under its `as` targets and leaves all other names alone; names that an open
element injects do not count, since they go when it closes. Main statement:
`Bindings.Stores.ejectAll`.
-/

namespace ScoreScript

namespace Bindings

/-- Types as bindings. -/
def ofTypes (types : Assoc TypeId) : Bindings :=
  types.map fun (name, id) => (name, .type id)

theorem get?_ofTypes (types : Assoc TypeId) (name : String) :
    (ofTypes types).get? name = (types.get? name).map .type := by
  induction types with
  | nil => rfl
  | cons entry rest ih =>
    simp only [Assoc.get?, ofTypes] at ih ⊢
    rw [List.map_cons, List.lookup_cons, List.lookup_cons]
    cases name == entry.1 with
    | true => rfl
    | false => exact ih

theorem get?_start (c : Catalogue) {name : String} (other : name ≠ helperName) :
    (start c).get? name = (c.global? name).map .type := by
  rw [start, Assoc.get?_put, if_neg other]
  exact get?_ofTypes c.globals name

/-- What is bound stands behind what was there, each name once. -/
theorem injectAll_fst (b : Bindings) (types : Assoc TypeId) :
    (b.injectAll types).1 = b ++ ofTypes (b.injectAll types).2 := by
  induction types generalizing b with
  | nil => exact (List.append_nil b).symm
  | cons entry rest ih =>
    obtain ⟨name, id⟩ := entry
    rw [injectAll, inject]
    cases known : Assoc.contains b name with
    | true => exact ih b
    | false =>
      simp only [Bool.false_eq_true, if_false, if_true]
      rw [ih, Assoc.put_of_new _ known, List.append_assoc]
      rfl

/-- A name means what it meant before, and else the type that it is injected for. -/
theorem get?_injectAll (b : Bindings) (types : Assoc TypeId) (name : String) :
    Assoc.get? (b.injectAll types).1 name =
      (Assoc.get? b name).or ((types.get? name).map .type) := by
  induction types generalizing b with
  | nil => simp [injectAll, Assoc.get?]
  | cons entry rest ih =>
    obtain ⟨first, id⟩ := entry
    rw [injectAll, inject]
    cases known : Assoc.contains b first with
    | true =>
      simp only [if_true]
      rw [ih]
      by_cases same : name = first
      · subst same
        obtain ⟨v, found⟩ := Option.ne_none_iff_exists'.1
          (mt Assoc.get?_eq_none_iff.1 (Bool.not_eq_false _ ▸ known))
        rw [found]
        rfl
      · rw [Assoc.get?, Assoc.get?, Assoc.get?, List.lookup_cons, beq_eq_false_iff_ne.2 same]
    | false =>
      simp only [Bool.false_eq_true, if_false]
      rw [ih, Assoc.get?_put]
      by_cases same : name = first
      · subst same
        rw [if_pos rfl, Assoc.get?_eq_none_iff.2 known, Assoc.get?, Assoc.get?,
          List.lookup_cons_self]
        rfl
      · rw [if_neg same, Assoc.get?, Assoc.get?, Assoc.get?, List.lookup_cons,
          beq_eq_false_iff_ne.2 same]

/-- Only new names are bound, each once. -/
theorem injectAll_new (b : Bindings) (types : Assoc TypeId) :
    (∀ entry ∈ (b.injectAll types).2, Assoc.contains b entry.1 = false) ∧
      (Assoc.keys (b.injectAll types).2).Nodup := by
  induction types generalizing b with
  | nil => exact ⟨nofun, .nil⟩
  | cons entry rest ih =>
    obtain ⟨name, id⟩ := entry
    rw [injectAll, inject]
    cases known : Assoc.contains b name with
    | true => exact ih b
    | false =>
      simp only [Bool.false_eq_true, if_false, if_true]
      obtain ⟨new, distinct⟩ := ih (Assoc.put name (.type id) b)
      have apart : ∀ later ∈ (injectAll (Assoc.put name (.type id) b) rest).2,
          Assoc.contains b later.1 = false ∧ later.1 ≠ name := by
        intro later member
        have absent := new later member
        rw [Assoc.put_of_new _ known, Assoc.contains, List.any_append,
          Bool.or_eq_false_iff] at absent
        exact ⟨absent.1, fun same => by simp [same] at absent⟩
      refine ⟨List.forall_mem_cons.2 ⟨known, fun later member => (apart later member).1⟩, ?_⟩
      refine List.nodup_cons.2 ⟨fun member => ?_, distinct⟩
      obtain ⟨later, inside, same⟩ := List.mem_map.1 member
      exact (apart later inside).2 same

theorem eject_append {b rest : Bindings} {name : String} {id : TypeId}
    (new : Assoc.contains b name = false) (once : Assoc.contains rest name = false) :
    eject (b ++ (name, .type id) :: rest) name id = b ++ rest := by
  have found : Assoc.get? (b ++ (name, .type id) :: rest) name = some (.type id) := by
    rw [Assoc.get?_append, Assoc.get?_eq_none_iff.2 new, Assoc.get?, List.lookup_cons_self]
    rfl
  have dropped : Assoc.erase ((name, Value.type id) :: rest) name = Assoc.erase rest name :=
    List.filter_cons_of_neg (by simp)
  rw [eject, found]
  simp only [if_true]
  rw [Assoc.erase_append, dropped, Assoc.erase_of_new new, Assoc.erase_of_new once]

theorem contains_ofTypes {types : Assoc TypeId} {name : String} :
    Assoc.contains (ofTypes types) name = true ↔ name ∈ Assoc.keys types := by
  simp [Assoc.contains, ofTypes, Assoc.keys]

theorem ejectAll_append {b : Bindings} {types : Assoc TypeId}
    (new : ∀ entry ∈ types, Assoc.contains b entry.1 = false)
    (distinct : (Assoc.keys types).Nodup) : ejectAll (b ++ ofTypes types) types = b := by
  induction types with
  | nil => exact List.append_nil b
  | cons entry rest ih =>
    obtain ⟨name, id⟩ := entry
    obtain ⟨here, later⟩ := List.forall_mem_cons.1 new
    obtain ⟨once, distinct⟩ := List.nodup_cons.1 distinct
    have gone : eject (b ++ ofTypes ((name, id) :: rest)) name id = b ++ ofTypes rest :=
      eject_append here (Bool.eq_false_iff.2 (mt contains_ofTypes.1 once))
    change ejectAll (eject (b ++ ofTypes ((name, id) :: rest)) name id) rest = b
    rw [gone]
    exact ih later distinct

/-- Leaving a scope leaves the names as they were before it was entered. -/
theorem ejectAll_injectAll (b : Bindings) (types : Assoc TypeId) :
    (b.injectAll types).1.ejectAll (b.injectAll types).2 = b := by
  obtain ⟨new, distinct⟩ := injectAll_new b types
  rw [injectAll_fst]
  exact ejectAll_append new distinct

end Bindings

end ScoreScript

namespace ScoreScript

namespace Script

/-- The name that an expression stores to, if it is a name. -/
def Expr.storedName? : Expr → Option String
  | .name id _ _ => some id
  | _ => none

/-- What the `with` items of one statement store to. -/
def itemTargets (items : List WithItem) : List Expr :=
  items.flatMap (·.target.toList)

mutual

/-- What the `with` items of a statement store to, at any depth. -/
def Stmt.targets : Stmt → List Expr
  | .withStmt items body _ => itemTargets items ++ bodyTargets body
  | _ => []

def bodyTargets : List Stmt → List Expr
  | [] => []
  | s :: rest => s.targets ++ bodyTargets rest

end

end Script

open Script (Expr)

namespace Bindings

variable {b b' b'' : Bindings}

/-! ### Taking names away -/

theorem get?_eject_self {name : String} {id : TypeId}
    (bound : Assoc.get? b name = some (.type id)) : Assoc.get? (b.eject name id) name = none := by
  rw [eject, bound]
  simp only [if_true]
  rw [Assoc.get?_eq_none_iff, Assoc.contains, List.any_eq_false]
  intro entry member same
  exact of_decide_eq_true (List.mem_filter.1 member).2 (beq_iff_eq.1 same)

theorem get?_eject_of_ne {name other : String} {id : TypeId}
    (kept : name = other → Assoc.get? b other ≠ some (.type id)) :
    Assoc.get? (b.eject name id) other = Assoc.get? b other := by
  unfold eject
  split
  · rename_i bound found
    split
    · rename_i same
      have ne : name ≠ other := fun this => kept this (this ▸ same ▸ found)
      exact Assoc.get?_erase b ne
    · rfl
  · rfl

theorem get?_ejectAll_of_ne {names : Assoc TypeId} {name : String}
    (kept : ∀ id, (name, id) ∈ names → Assoc.get? b name ≠ some (.type id)) :
    Assoc.get? (b.ejectAll names) name = Assoc.get? b name := by
  induction names generalizing b with
  | nil => rfl
  | cons first rest ih =>
    have left : Assoc.get? (b.eject first.1 first.2) name = Assoc.get? b name :=
      get?_eject_of_ne fun same => kept first.2 (same ▸ List.mem_cons_self)
    change Assoc.get? ((b.eject first.1 first.2).ejectAll rest) name = _
    rw [ih fun id member => ?_, left]
    rw [left]
    exact kept id (List.mem_cons_of_mem first member)

/-- A type that is listed goes, if the name still means it. -/
theorem get?_ejectAll_of_mem {names : Assoc TypeId} {name : String} {id : TypeId}
    (member : (name, id) ∈ names) (bound : Assoc.get? b name = some (.type id)) :
    Assoc.get? (b.ejectAll names) name = none := by
  induction names generalizing b with
  | nil => cases member
  | cons first rest ih =>
    change Assoc.get? ((b.eject first.1 first.2).ejectAll rest) name = _
    by_cases same : first = (name, id)
    · have gone : Assoc.get? (b.eject first.1 first.2) name = none := same ▸ get?_eject_self bound
      rw [get?_ejectAll_of_ne fun _ _ => gone ▸ nofun, gone]
    · refine ih ((List.mem_cons.1 member).resolve_left (Ne.symm same)) ?_
      rw [get?_eject_of_ne fun here => ?_, bound]
      rw [bound]
      exact fun this => same (Prod.ext here (Value.type.inj (Option.some.inj this)).symm)

/-! ### Stored names -/

/-- The names that are stored to mean element markers by now, and the others what they meant. -/
structure Stores (targets : List Expr) (b b' : Bindings) : Prop where
  kept : ∀ name, (∀ t ∈ targets, t.storedName? ≠ some name) →
    Assoc.get? b' name = Assoc.get? b name
  stored : ∀ t ∈ targets, ∃ name tag,
    t.storedName? = some name ∧ Assoc.get? b' name = some (.element tag)

theorem Stores.refl (b : Bindings) : Stores [] b b :=
  ⟨fun _ _ => rfl, nofun⟩

theorem Stores.trans {targets more : List Expr} (first : Stores targets b b')
    (rest : Stores more b' b'') : Stores (targets ++ more) b b'' := by
  constructor
  · intro name other
    obtain ⟨before, after⟩ := List.forall_mem_append.1 other
    exact (rest.kept name after).trans (first.kept name before)
  · refine List.forall_mem_append.2 ⟨fun t member => ?_, rest.stored⟩
    obtain ⟨name, tag, names, found⟩ := first.stored t member
    by_cases again : ∀ t' ∈ more, t'.storedName? ≠ some name
    · exact ⟨name, tag, names, (rest.kept name again).trans found⟩
    · push Not at again
      obtain ⟨t', member', names'⟩ := again
      obtain ⟨name', tag', same, found'⟩ := rest.stored t' member'
      cases Option.some.inj (names'.symm.trans same)
      exact ⟨name, tag', names, found'⟩

theorem Stores.put (b : Bindings) {target : Expr} {name : String}
    (names : target.storedName? = some name) (tag : String) :
    Stores [target] b (Assoc.put name (.element tag) b) := by
  constructor
  · intro other ne
    have ne : other ≠ name := fun same => ne target (List.mem_singleton.2 rfl) (same ▸ names)
    rw [Assoc.get?_put, if_neg ne]
  · intro t member
    cases List.mem_singleton.1 member
    exact ⟨name, tag, names, by rw [Assoc.get?_put, if_pos rfl]⟩

/-- What is stored around injected names stays, and the injected names go. -/
theorem Stores.ejectAll {targets : List Expr} {types : Assoc TypeId}
    (stores : Stores targets (b.injectAll types).1 b') :
    Stores targets b (b'.ejectAll (b.injectAll types).2) := by
  obtain ⟨new, -⟩ := injectAll_new b types
  constructor
  · intro name other
    have found := stores.kept name other
    rw [injectAll_fst, Assoc.get?_append, get?_ofTypes] at found
    cases before : Assoc.get? b name with
    | some v =>
      rw [before] at found
      refine (get?_ejectAll_of_ne fun id member => ?_).trans found
      have absent := Assoc.get?_eq_none_iff.2 (new _ member)
      rw [before] at absent
      cases absent
    | none =>
      rw [before, Option.none_or] at found
      cases injected : Assoc.get? (b.injectAll types).2 name with
      | none =>
        rw [injected] at found
        exact (get?_ejectAll_of_ne fun _ _ => found ▸ nofun).trans found
      | some id =>
        rw [injected] at found
        exact get?_ejectAll_of_mem (Assoc.mem_of_get? injected) found
  · intro t member
    obtain ⟨name, tag, names, found⟩ := stores.stored t member
    exact ⟨name, tag, names, (get?_ejectAll_of_ne fun _ _ => found ▸ nofun).trans found⟩

/-! ### Types among the names -/

/-- The types that the names mean are all in the catalogue. -/
def Known (c : Catalogue) (b : Bindings) : Prop :=
  ∀ name id, Assoc.get? b name = some (.type id) → c.Has id

theorem Known.stores {c : Catalogue} {targets : List Expr} (known : b.Known c)
    (stores : Stores targets b b') : b'.Known c := by
  intro name id found
  by_cases other : ∀ t ∈ targets, t.storedName? ≠ some name
  · exact known name id ((stores.kept name other).symm.trans found)
  · push Not at other
    obtain ⟨t, member, names⟩ := other
    obtain ⟨name', tag, same, stored⟩ := stores.stored t member
    cases Option.some.inj (names.symm.trans same)
    cases found.symm.trans stored

theorem Known.injectAll {c : Catalogue} {types : Assoc TypeId} (known : b.Known c)
    (has : ∀ entry ∈ types, c.Has entry.2) : (b.injectAll types).1.Known c := by
  intro name id found
  rw [get?_injectAll] at found
  rcases Option.or_eq_some_iff.1 found with before | ⟨-, injected⟩
  · exact known name id before
  · obtain ⟨id', member, same⟩ := Option.map_eq_some_iff.1 injected
    cases same
    exact has _ (Assoc.mem_of_get? member)

theorem known_start {c : Catalogue} (closed : c.Closed) : (start c).Known c := by
  intro name id found
  by_cases helper : name = helperName
  · rw [start, Assoc.get?_put, if_pos helper] at found
    cases found
  · rw [get?_start c helper] at found
    obtain ⟨id', global, same⟩ := Option.map_eq_some_iff.1 found
    cases same
    exact closed.globals _ (Assoc.mem_of_get? global)

end Bindings

end ScoreScript
