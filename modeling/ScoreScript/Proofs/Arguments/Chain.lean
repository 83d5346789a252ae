import Mathlib.Data.Fintype.Pigeonhole
import Mathlib.Logic.Relation
import ScoreScript.Proofs.Building.Plan
import ScoreScript.Proofs.Catalogue.Closed

/-!
Where a plain value goes. A value that is no collection of arguments is handed on from a type to the
type that its first field holds, and so on. A chain of types that is longer than the catalogue goes
round in a circle, so it never ends; any other chain ends before it has met more types than the
catalogue has. Main statements: `endless_of_long`, `exists_circle_iff`, `plainElement_succ_size`.
-/

namespace ScoreScript

namespace Catalogue

/-- The type that the first field of a type holds, if that field holds children. -/
def firstSlot? (c : Catalogue) (id : TypeId) : Option TypeId :=
  match c.get? id with
  | none => none
  | some type =>
    match type.fields with
    | (_, .child slot) :: _ => some slot
    | _ => none

/-- The first declared field of the one type is a child slot of the other. -/
def HandsOn (c : Catalogue) (id slot : TypeId) : Prop :=
  c.firstSlot? id = some slot

/-- The type that is reached from a type over so many first fields. -/
def handed? (c : Catalogue) : Nat → TypeId → Option TypeId
  | 0, id => some id
  | n + 1, id => (c.firstSlot? id).bind (c.handed? n)

/-- The chain of first fields from a type does not end. -/
def Endless (c : Catalogue) (id : TypeId) : Prop :=
  ∀ n, (c.handed? n id).isSome = true

variable {c : Catalogue} {id slot : TypeId}

theorem handsOn_iff : c.HandsOn id slot ↔
    ∃ type name more, c.get? id = some type ∧ type.fields = (name, .child slot) :: more := by
  unfold HandsOn firstSlot?
  constructor
  · intro found
    split at found
    · cases found
    · rename_i type known
      split at found
      · rename_i name slot' more fields
        cases found
        exact ⟨type, name, more, known, fields⟩
      · cases found
  · rintro ⟨type, name, more, known, fields⟩
    simp only [known, fields]

theorem handed?_add (m n : Nat) (id : TypeId) :
    c.handed? (m + n) id = (c.handed? m id).bind (c.handed? n) := by
  induction m generalizing id with
  | zero => rw [Nat.zero_add, handed?, Option.bind_some]
  | succ m ih =>
    rw [Nat.add_right_comm, handed?, handed?, Option.bind_assoc]
    exact congrArg _ (funext ih)

theorem handed?_succ_of_handsOn (hands : c.HandsOn id slot) (n : Nat) :
    c.handed? (n + 1) id = c.handed? n slot := by
  rw [handed?, hands, Option.bind_some]

/-- What is before the end of a chain hands on to the next type in it. -/
theorem isSome_of_le {m n : Nat} (le : m ≤ n) (there : (c.handed? n id).isSome = true) :
    (c.handed? m id).isSome = true := by
  obtain ⟨k, rfl⟩ := Nat.exists_eq_add_of_le le
  rw [handed?_add] at there
  cases reached : c.handed? m id with
  | none => rw [reached] at there; cases there
  | some _ => rfl

theorem exists_handsOn_of_isSome {n : Nat} (there : (c.handed? (n + 1) id).isSome = true) :
    ∃ slot, c.HandsOn id slot ∧ (c.handed? n slot).isSome = true := by
  rw [handed?] at there
  cases first : c.firstSlot? id with
  | none => rw [first] at there; cases there
  | some slot => exact ⟨slot, first, by rwa [first, Option.bind_some] at there⟩

/-- A type that hands on is one of the catalogue. -/
theorem HandsOn.index_lt (hands : c.HandsOn id slot) : id.index < c.size := by
  obtain ⟨type, -, -, known, -⟩ := handsOn_iff.1 hands
  exact has_iff.1 ⟨type, known⟩

/-- Among more types than the catalogue has, a chain meets one twice. -/
theorem exists_twice_of_long (long : (c.handed? (c.size + 1) id).isSome = true) :
    ∃ m n again, m < n ∧ n ≤ c.size ∧ c.handed? m id = some again ∧
      c.handed? n id = some again := by
  have each (n : Fin (c.size + 1)) :
      ∃ met, c.handed? n id = some met ∧ met.index < c.size := by
    have past := isSome_of_le (Nat.succ_le_succ (Nat.le_of_lt_succ n.isLt)) long
    rw [Nat.succ_eq_add_one, handed?_add] at past
    cases reached : c.handed? n id with
    | none => rw [reached] at past; cases past
    | some met =>
      rw [reached, Option.bind_some] at past
      obtain ⟨slot, hands, -⟩ := exists_handsOn_of_isSome past
      exact ⟨met, rfl, hands.index_lt⟩
  choose met reached inside using each
  obtain ⟨m, n, differ, same⟩ := Fintype.exists_ne_map_eq_of_card_lt
    (fun n => (⟨(met n).index, inside n⟩ : Fin c.size)) (by simp)
  have again : met m = met n := congrArg TypeId.mk (Fin.mk.inj same)
  rcases Nat.lt_or_gt_of_ne (Fin.val_ne_of_ne differ) with before | after
  · exact ⟨m, n, met m, before, Nat.le_of_lt_succ n.isLt, reached m, again ▸ reached n⟩
  · exact ⟨n, m, met n, after, Nat.le_of_lt_succ m.isLt, reached n, again ▸ reached m⟩

/-- A chain that is longer than the catalogue does not end. -/
theorem endless_of_long (long : (c.handed? (c.size + 1) id).isSome = true) : c.Endless id := by
  obtain ⟨m, n, again, before, within, first, second⟩ := exists_twice_of_long long
  intro k
  -- What comes `k` steps after the second visit came already after the first one.
  induction k using Nat.strongRecOn with
  | _ k ih =>
    by_cases short : k ≤ n
    · exact isSome_of_le (Nat.le_trans short (Nat.le_succ_of_le within)) long
    · obtain ⟨more, rfl⟩ := Nat.exists_eq_add_of_le (Nat.le_of_not_le short)
      have earlier := ih (m + more) (Nat.add_lt_add_right before more)
      rw [handed?_add, first] at earlier
      rwa [handed?_add, second]

/-- A chain ends within as many types as the catalogue has, or not at all. -/
theorem ends_or_endless (c : Catalogue) (id : TypeId) :
    c.handed? (c.size + 1) id = none ∨ c.Endless id := by
  cases last : c.handed? (c.size + 1) id with
  | none => exact .inl rfl
  | some _ => exact .inr (endless_of_long (by rw [last]; rfl))

theorem Endless.exists_handsOn (endless : c.Endless id) :
    ∃ slot, c.HandsOn id slot ∧ c.Endless slot := by
  obtain ⟨slot, hands, -⟩ := exists_handsOn_of_isSome (endless 1)
  exact ⟨slot, hands, fun n => handed?_succ_of_handsOn hands n ▸ endless (n + 1)⟩

/-! ### Circles -/

theorem reaches_of_handed? {n : Nat} {met : TypeId} (reached : c.handed? (n + 1) id = some met) :
    Relation.TransGen c.HandsOn id met := by
  induction n generalizing id with
  | zero =>
    obtain ⟨slot, hands, last⟩ := Option.bind_eq_some_iff.1 reached
    cases last
    exact .single hands
  | succ n ih =>
    obtain ⟨slot, hands, last⟩ := Option.bind_eq_some_iff.1 reached
    exact .head hands (ih last)

/-- What leads back to a type of a circle does not come to an end. -/
theorem endless_of_circle (circle : Relation.TransGen c.HandsOn id id) : c.Endless id := by
  have onward {start : TypeId} (n : Nat) (back : Relation.TransGen c.HandsOn start id) :
      (c.handed? n start).isSome = true := by
    induction n generalizing start with
    | zero => rfl
    | succ n ih =>
      obtain ⟨slot, hands, rest⟩ := Relation.TransGen.head'_iff.1 back
      rw [handed?_succ_of_handsOn hands]
      rcases rest.cases_head with rfl | ⟨next, step, further⟩
      · exact ih circle
      · exact ih (Relation.TransGen.head' step further)
  exact fun n => onward n circle

/-- A chain is endless because somewhere it goes round in a circle. -/
theorem exists_circle_iff : (∃ id, Relation.TransGen c.HandsOn id id) ↔ ∃ id, c.Endless id := by
  constructor
  · rintro ⟨id, circle⟩
    exact ⟨id, endless_of_circle circle⟩
  · rintro ⟨id, endless⟩
    obtain ⟨m, n, again, before, -, first, second⟩ := exists_twice_of_long (endless (c.size + 1))
    obtain ⟨more, rfl⟩ := Nat.exists_eq_add_of_lt before
    rw [Nat.add_assoc, handed?_add, first, Option.bind_some] at second
    exact ⟨again, reaches_of_handed? second⟩

end Catalogue

/-! ### Plain values -/

section

variable {c : Catalogue} {span : Span} {v : Value}

/-- How far a value may be handed on does not matter once its chain has ended. -/
theorem plainElement_of_ends {n : Nat} {id : TypeId} (ends : c.handed? n id = none)
    {room room' : Nat} (enough : n ≤ room) (enough' : n ≤ room') :
    plainElement c span v room id = plainElement c span v room' id := by
  induction n generalizing id room room' with
  | zero => cases ends
  | succ n ih =>
    obtain ⟨room, rfl⟩ := Nat.exists_eq_succ_of_ne_zero (Nat.ne_zero_of_lt enough)
    obtain ⟨room', rfl⟩ := Nat.exists_eq_succ_of_ne_zero (Nat.ne_zero_of_lt enough')
    rw [Nat.succ_eq_add_one, Nat.succ_eq_add_one, plainElement_succ, plainElement_succ]
    cases started : Draft.start c span id 1 [] with
    | error e => rfl
    | ok d =>
      have same : giveFirst c span v room d = giveFirst c span v room' d := by
        unfold giveFirst
        split
        · rfl
        · rfl
        · rfl
        · rename_i slot more fields
          have hands : c.HandsOn id slot :=
            Catalogue.handsOn_iff.2 ⟨_, _, _, (Plan.start_eq_ok started).1, fields⟩
          rw [Catalogue.handed?_succ_of_handsOn hands] at ends
          rw [ih ends (Nat.le_of_succ_le_succ enough) (Nat.le_of_succ_le_succ enough')]
      change (giveFirst c span v room d >>= _) = (giveFirst c span v room' d >>= _)
      rw [same]

/-- A draft of a type that has fields takes one positional argument. -/
theorem start_of_fields {id : TypeId} {type : ElementType} {first : String × Field}
    {more : Assoc Field} (known : c.get? id = some type) (fields : type.fields = first :: more) :
    Draft.start c span id 1 [] = .ok ⟨type, .empty type.tag, []⟩ := by
  have element : c.element id = .ok type := by rw [Catalogue.element, known]
  have enough : ¬type.fields.length < 1 := by
    rw [fields, List.length_cons]
    omega
  rw [Draft.start, element]
  simp only [bind, Except.bind]
  rw [if_neg enough]
  rfl

/-- A value that is handed on without end stays what it is, and so does the error. -/
theorem plainElement_of_endless {id : TypeId} (endless : c.Endless id) (room : Nat) :
    plainElement c span v room id = throw (.bare (.schema (.endlessField v.literal))) := by
  induction room generalizing id with
  | zero => rfl
  | succ room ih =>
    obtain ⟨slot, hands, further⟩ := endless.exists_handsOn
    obtain ⟨type, name, more, known, fields⟩ := Catalogue.handsOn_iff.1 hands
    rw [plainElement_succ, start_of_fields known fields]
    change (giveFirst c span v room ⟨type, .empty type.tag, []⟩ >>= _) = _
    simp only [giveFirst, fields, ih further]
    rfl

/-- One more type to hand a value on to changes nothing. -/
theorem plainElement_succ_size (c : Catalogue) (span : Span) (v : Value) (id : TypeId) :
    plainElement c span v (c.size + 1 + 1) id = plainElement c span v (c.size + 1) id := by
  rcases c.ends_or_endless id with ends | endless
  · exact plainElement_of_ends ends (Nat.le_succ _) (Nat.le_refl _)
  · rw [plainElement_of_endless endless, plainElement_of_endless endless]

end

end ScoreScript
