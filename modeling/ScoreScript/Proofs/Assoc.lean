import Mathlib.Data.List.Basic
import Mathlib.Data.List.Induction
import Mathlib.Data.List.Nodup
import ScoreScript.Assoc

/-!
Tables that are put behind one another: what is new goes to the end, and can be taken away again.
-/

namespace ScoreScript

namespace Assoc

variable {α : Type}

theorem get?_eq_none_iff {table : Assoc α} {key : String} :
    table.get? key = none ↔ table.contains key = false := by
  rw [get?, contains, List.lookup_eq_none_iff, List.any_eq_false]
  refine forall₂_congr fun entry _ => ?_
  rw [bne_iff_ne, beq_iff_eq, ne_comm]

/-- Where no name comes twice, a name is not among those before it. -/
theorem contains_of_nodup {before after : Assoc α} {key : String} {value : α}
    (distinct : (keys (before ++ (key, value) :: after)).Nodup) : before.contains key = false := by
  rw [contains, List.any_eq_false]
  intro entry member same
  rw [keys, List.map_append, List.nodup_append] at distinct
  exact distinct.2.2 _ (List.mem_map_of_mem member) key (by simp) (beq_iff_eq.1 same)

theorem contains_of_prefix {before all : Assoc α} {key : String} {value : α}
    (distinct : (keys all).Nodup) (inside : before ++ [(key, value)] <+: all) :
    before.contains key = false := by
  obtain ⟨after, rfl⟩ := inside
  rw [List.append_assoc] at distinct
  exact contains_of_nodup distinct

theorem contains_eq_false_iff {table : Assoc α} {key : String} :
    table.contains key = false ↔ key ∉ keys table := by
  rw [contains, List.any_eq_false, keys, List.mem_map, not_exists]
  exact forall_congr' fun entry => by rw [beq_iff_eq, not_and]

theorem nodup_keys_cons {table : Assoc α} {key : String} {value : α} :
    (keys ((key, value) :: table)).Nodup ↔ table.contains key = false ∧ (keys table).Nodup := by
  rw [contains_eq_false_iff]
  exact List.nodup_cons

theorem nodup_keys_reverse {table : Assoc α} :
    (keys (List.reverse table)).Nodup ↔ (keys table).Nodup := by
  rw [keys, List.map_reverse, List.nodup_reverse, keys]

theorem get?_append (table more : Assoc α) (key : String) :
    Assoc.get? (table ++ more) key = (table.get? key).or (more.get? key) :=
  List.lookup_append

theorem get?_cons (key other : String) (value : α) (table : Assoc α) :
    get? ((key, value) :: table) other = if other = key then some value else table.get? other := by
  rw [get?, List.lookup_cons]
  by_cases same : other = key
  · rw [if_pos same, beq_iff_eq.2 same]
  · rw [if_neg same, beq_eq_false_iff_ne.2 same, get?]

theorem put_of_new {key : String} (value : α) {table : Assoc α}
    (new : table.contains key = false) : put key value table = table ++ [(key, value)] := by
  induction table with
  | nil => rfl
  | cons entry rest ih =>
    rw [contains, List.any_cons, Bool.or_eq_false_iff] at new
    rw [put, if_neg (beq_eq_false_iff_ne.1 new.1), ih new.2, List.cons_append]

theorem erase_append (table more : Assoc α) (key : String) :
    Assoc.erase (table ++ more) key = table.erase key ++ more.erase key :=
  List.filter_append ..

theorem erase_of_new {key : String} {table : Assoc α} (new : table.contains key = false) :
    table.erase key = table := by
  rw [contains, List.any_eq_false] at new
  exact List.filter_eq_self.2 fun entry member => by simpa using new entry member

theorem get?_erase (table : Assoc α) {key other : String} (ne : key ≠ other) :
    (table.erase key).get? other = table.get? other := by
  induction table with
  | nil => rfl
  | cons entry rest ih =>
    rw [get?, get?] at ih
    rw [erase] at ih ⊢
    rw [List.filter_cons, get?, get?, List.lookup_cons]
    split
    · rw [List.lookup_cons, ih]
    · rename_i dropped
      have same : entry.1 = key := by simpa using dropped
      rw [ih, same, beq_eq_false_iff_ne.2 ne.symm]

theorem mem_put {key : String} {value : α} {table : Assoc α} {entry : String × α}
    (member : entry ∈ put key value table) : entry = (key, value) ∨ entry ∈ table := by
  induction table with
  | nil => exact .inl (List.mem_singleton.1 member)
  | cons first rest ih =>
    rw [put] at member
    split at member
    · exact (List.mem_cons.1 member).imp_right (List.mem_cons_of_mem first)
    · rcases List.mem_cons.1 member with rfl | later
      · exact .inr List.mem_cons_self
      · exact (ih later).imp_right (List.mem_cons_of_mem first)

/-- A value under a name that is there already changes no name, and a new name comes last. -/
theorem keys_put (key : String) (value : α) (table : Assoc α) :
    keys (put key value table) = if key ∈ keys table then keys table else keys table ++ [key] := by
  induction table with
  | nil => rfl
  | cons entry rest ih =>
    have names (entry : String × α) (table : Assoc α) :
        keys (entry :: table) = entry.1 :: keys table := rfl
    rw [put, names]
    by_cases same : entry.1 = key
    · rw [if_pos same, if_pos (List.mem_cons.2 (.inl same.symm)), names, same]
    · rw [if_neg same, names, ih]
      by_cases old : key ∈ keys rest
      · rw [if_pos old, if_pos (List.mem_cons_of_mem _ old)]
      · rw [if_neg old, if_neg (List.not_mem_cons_of_ne_of_not_mem (Ne.symm same) old)]
        rfl

theorem nodup_keys_put {table : Assoc α} (distinct : (keys table).Nodup) (key : String)
    (value : α) : (keys (put key value table)).Nodup := by
  rw [keys_put]
  split
  · exact distinct
  · rename_i new
    refine List.nodup_append.2 ⟨distinct, List.pairwise_singleton _ key, ?_⟩
    rintro name member other last rfl
    exact new (List.mem_singleton.1 last ▸ member)

theorem nodup_keys_putAll {table : Assoc α} (distinct : (keys table).Nodup) (more : Assoc α) :
    (keys (table.putAll more)).Nodup := by
  induction more generalizing table with
  | nil => exact distinct
  | cons entry rest ih => exact ih (nodup_keys_put distinct entry.1 entry.2)

theorem mem_putAll {table more : Assoc α} {entry : String × α}
    (member : entry ∈ table.putAll more) : entry ∈ table ∨ entry ∈ more := by
  induction more generalizing table with
  | nil => exact .inl member
  | cons first rest ih =>
    change entry ∈ (put first.1 first.2 table).putAll rest at member
    rcases ih member with earlier | later
    · exact (mem_put earlier).symm.imp_right fun same => by rw [same]; exact List.mem_cons_self
    · exact .inr (List.mem_cons_of_mem first later)

/-- What is put counts before what was there. -/
theorem get?_putAll {more : Assoc α} (distinct : (keys more).Nodup) (table : Assoc α)
    (key : String) : (table.putAll more).get? key = (more.get? key).or (table.get? key) := by
  induction more generalizing table with
  | nil => rfl
  | cons entry rest ih =>
    obtain ⟨name, value⟩ := entry
    obtain ⟨new, distinct⟩ := nodup_keys_cons.1 distinct
    refine (ih distinct (put name value table)).trans ?_
    rw [get?_put, get?_cons]
    by_cases same : key = name
    · rw [if_pos same, if_pos same, same, get?_eq_none_iff.2 new, Option.none_or, Option.some_or]
    · rw [if_neg same, if_neg same]

/-- Of tables that are put one after the other the last one counts. -/
theorem get?_foldl_putAll {tables : List (Assoc α)} (distinct : ∀ t ∈ tables, (keys t).Nodup)
    (table : Assoc α) (key : String) :
    get? (tables.foldl putAll table) key =
      (tables.reverse.findSome? (·.get? key)).or (table.get? key) := by
  induction tables generalizing table with
  | nil => rfl
  | cons first rest ih =>
    obtain ⟨here, distinct⟩ := List.forall_mem_cons.1 distinct
    rw [List.foldl_cons, ih distinct, get?_putAll here, List.reverse_cons, List.findSome?_append,
      List.findSome?_singleton, Option.or_assoc]

theorem mem_of_get? {table : Assoc α} {key : String} {value : α}
    (found : table.get? key = some value) : (key, value) ∈ table := by
  induction table with
  | nil => cases found
  | cons first rest ih =>
    rw [get?, List.lookup_cons] at found
    split at found
    · rename_i same
      cases found
      rw [beq_iff_eq.1 same]
      exact List.mem_cons_self
    · exact List.mem_cons_of_mem first (ih found)

/-- Where no name comes twice, a value is found under its name. -/
theorem get?_eq_some_iff {table : Assoc α} (distinct : (keys table).Nodup) {key : String}
    {value : α} : table.get? key = some value ↔ (key, value) ∈ table := by
  refine ⟨mem_of_get?, fun member => ?_⟩
  obtain ⟨before, after, rfl⟩ := List.append_of_mem member
  rw [get?_append, get?_eq_none_iff.2 (contains_of_nodup distinct), Option.none_or, get?,
    List.lookup_cons_self]

theorem get?_map {β : Type} (f : α → β) (table : Assoc α) (key : String) :
    get? (table.map fun entry => (entry.1, f entry.2)) key = (table.get? key).map f := by
  induction table with
  | nil => rfl
  | cons entry rest ih =>
    rw [get?, get?] at ih
    rw [List.map_cons, get?, get?, List.lookup_cons, List.lookup_cons, ih]
    split <;> rfl

/-- Of names that come one after the other each is new only the first time. -/
theorem foldl_addName (names : List String) :
    (names.foldl (fun known name => if name ∈ known then known else known ++ [name]) []) =
      names.eraseDups := by
  induction names using List.reverseRecOn with
  | nil => rfl
  | append_singleton earlier last ih =>
    rw [List.foldl_concat, ih, List.eraseDups_append, List.cons_removeAll]
    simp only [List.mem_eraseDups]
    by_cases old : last ∈ earlier <;> simp [old, List.removeAll, List.eraseDups_cons]

/-- Of a name that is put more than once only the first place counts. -/
theorem keys_putAll (more : Assoc α) : keys (putAll [] more) = (keys more).eraseDups := by
  have step (table : Assoc α) (entry : String × α) := keys_put entry.1 entry.2 table
  rw [← foldl_addName, keys, keys, List.foldl_map]
  exact (List.foldl_hom keys fun table entry => (step table entry).symm).symm

theorem keys_foldl_putAll (tables : List (Assoc α)) :
    keys (tables.foldl putAll []) = (tables.flatMap keys).eraseDups := by
  have flat : tables.foldl putAll [] = putAll [] tables.flatten := List.foldl_flatten.symm
  rw [flat, keys_putAll, keys, List.map_flatten, List.flatMap_def]
  rfl

end Assoc

end ScoreScript
