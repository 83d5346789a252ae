/-!
Tables with names as keys, in the order in which the names first came. Putting a value under a
name that is there already leaves the name in its place.
-/

namespace ScoreScript

abbrev Assoc (α : Type) := List (String × α)

namespace Assoc

variable {α : Type}

def get? (table : Assoc α) (key : String) : Option α :=
  table.lookup key

def contains (table : Assoc α) (key : String) : Bool :=
  table.any (·.1 == key)

def put (key : String) (value : α) : Assoc α → Assoc α
  | [] => [(key, value)]
  | entry :: rest =>
    if entry.1 = key then (key, value) :: rest else entry :: put key value rest

/-- Put the entries of a second table, one after the other. -/
def putAll (table more : Assoc α) : Assoc α :=
  more.foldl (fun table entry => table.put entry.1 entry.2) table

def erase (table : Assoc α) (key : String) : Assoc α :=
  table.filter (·.1 ≠ key)

def keys (table : Assoc α) : List String :=
  table.map (·.1)

private theorem lookup_cons_ne {key name : String} (h : key ≠ name) (value : α)
    (table : Assoc α) : List.lookup key ((name, value) :: table) = List.lookup key table := by
  rw [List.lookup_cons, beq_eq_false_iff_ne.2 h]

theorem get?_put (table : Assoc α) (key other : String) (value : α) :
    (put key value table).get? other = if other = key then some value else table.get? other := by
  induction table with
  | nil =>
    by_cases h : other = key
    · subst h
      simp [put, get?]
    · simp [put, get?, h, lookup_cons_ne h]
  | cons entry rest ih =>
    obtain ⟨name, old⟩ := entry
    simp only [get?] at ih ⊢
    by_cases same : name = key
    · subst same
      by_cases h : other = name
      · subst h
        simp [put]
      · simp [put, h, lookup_cons_ne h]
    · by_cases h : other = name
      · subst h
        simp [put, same]
      · simp [put, same, lookup_cons_ne h, ih]

end Assoc

end ScoreScript
