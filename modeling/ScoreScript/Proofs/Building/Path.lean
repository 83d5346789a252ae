import ScoreScript.Proofs.Building.Spot
import ScoreScript.Proofs.Schema.Wording

/-!
Paths and the texts of violations. If tags do not contain the characters that paths and messages
are put together with, the text of a violation says where it is and what it is about.
-/

namespace ScoreScript

/-- A tag that can be told from what comes after it in a path, like one of letters, digits and
hyphens. -/
def IsPlainTag (tag : String) : Prop :=
  ':' ∉ tag.toList ∧ '[' ∉ tag.toList

instance (tag : String) : Decidable (IsPlainTag tag) :=
  inferInstanceAs (Decidable (_ ∧ _))

/-- What a path has for a step to a child. -/
def stepText (step : String × Nat) : List Char :=
  '/' :: (step.1.toList ++ '[' :: (Nat.toDigits 10 step.2 ++ [']']))

theorem toList_pathTo (path : String) (steps : List (String × Nat)) :
    (pathTo path steps).toList = path.toList ++ steps.flatMap stepText := by
  induction steps generalizing path with
  | nil => exact (List.append_nil _).symm
  | cons step rest ih =>
    have first : s!"{path}/{step.1}[{step.2}]" =
        path ++ "/" ++ step.1 ++ "[" ++ step.2.repr ++ "]" := rfl
    have next : pathTo path (step :: rest) =
        pathTo (path ++ "/" ++ step.1 ++ "[" ++ step.2.repr ++ "]") rest := rfl
    rw [next, ih]
    simp [stepText]

theorem not_mem_toDigits {c : Char} (other : c ∉ ['0', '1', '2', '3', '4', '5', '6', '7', '8', '9'])
    (n : Nat) : c ∉ Nat.toDigits 10 n := by
  have digits : ∀ d < 10, Nat.digitChar d ∈ ['0', '1', '2', '3', '4', '5', '6', '7', '8', '9'] := by
    decide
  intro member
  obtain ⟨d, small, rfl⟩ := mem_toDigits (by decide) member
  exact other (digits d small)

theorem steps_inj {steps steps' : List (String × Nat)} (plain : ∀ step ∈ steps, IsPlainTag step.1)
    (plain' : ∀ step ∈ steps', IsPlainTag step.1)
    (same : steps.flatMap stepText = steps'.flatMap stepText) : steps = steps' := by
  induction steps generalizing steps' with
  | nil =>
    cases steps' with
    | nil => rfl
    | cons step rest => cases same
  | cons step rest ih =>
    cases steps' with
    | nil => cases same
    | cons step' rest' =>
      obtain ⟨tag, index⟩ := step
      obtain ⟨tag', index'⟩ := step'
      simp only [List.flatMap_cons, stepText, List.cons_append, List.append_assoc, List.cons.injEq,
        true_and] at same
      obtain ⟨top, below⟩ := List.forall_mem_cons.1 plain
      obtain ⟨top', below'⟩ := List.forall_mem_cons.1 plain'
      obtain ⟨tags, more⟩ := append_cons_inj top.2 top'.2 same
      have sameTag : tag = tag' := String.toList_inj.1 tags
      have bracket (n : Nat) : ']' ∉ Nat.toDigits 10 n := not_mem_toDigits (by decide) n
      obtain ⟨digits, more⟩ := append_cons_inj (bracket index) (bracket index') more
      rw [ih below below' more, sameTag, toDigits_inj (by decide) (by decide) digits]

theorem colon_not_mem_pathTo {path : String} {steps : List (String × Nat)} (start : IsPlainTag path)
    (plain : ∀ step ∈ steps, IsPlainTag step.1) : ':' ∉ (pathTo path steps).toList := by
  rw [toList_pathTo, List.mem_append, List.mem_flatMap]
  rintro (member | ⟨step, inSteps, member⟩)
  · exact start.1 member
  · have none : ':' ∉ Nat.toDigits 10 step.2 := not_mem_toDigits (by decide) step.2
    simp only [stepText, List.mem_cons, List.mem_append, List.not_mem_nil, or_false] at member
    rcases member with slash | tag | bracket | digit | bracket
    · exact absurd slash (by decide)
    · exact (plain step inSteps).1 tag
    · exact absurd bracket (by decide)
    · exact none digit
    · exact absurd bracket (by decide)

/-- Violations with the same text are in the same place and have the same message. -/
theorem Violation.steps_eq_of_text_eq {path : String} {steps steps' : List (String × Nat)}
    {f f' : Fault} (start : IsPlainTag path) (plain : ∀ step ∈ steps, IsPlainTag step.1)
    (plain' : ∀ step ∈ steps', IsPlainTag step.1)
    (same : (⟨f, pathTo path steps⟩ : Violation).text =
      (⟨f', pathTo path steps'⟩ : Violation).text) :
    steps = steps' ∧ f.text = f'.text := by
  have toList (f : Fault) (path : String) :
      (⟨f, path⟩ : Violation).text.toList = path.toList ++ ':' :: ' ' :: f.text.toList := by
    rw [show (⟨f, path⟩ : Violation).text = path ++ ": " ++ f.text from rfl]
    simp
  rw [← String.toList_inj, toList, toList] at same
  obtain ⟨paths, messages⟩ := append_cons_inj (colon_not_mem_pathTo start plain)
    (colon_not_mem_pathTo start plain') same
  rw [toList_pathTo, toList_pathTo] at paths
  refine ⟨steps_inj plain plain' (List.append_cancel_left paths), ?_⟩
  exact String.toList_inj.1 (List.cons.inj messages).2

namespace Piece

/-- All tags in a piece are plain. -/
inductive Plain : Piece → Prop where
  | intro (p : Piece) (tag : IsPlainTag p.tag) (children : ∀ c ∈ p.children, c.Plain) : Plain p

theorem Plain.tag {p : Piece} : p.Plain → IsPlainTag p.tag
  | .intro _ tag _ => tag

theorem Plain.children {p : Piece} : p.Plain → ∀ c ∈ p.children, c.Plain
  | .intro _ _ children => children

theorem Plain.steps {s : Schema} {around : Bool} {p : Piece} (plain : p.Plain) :
    ∀ spot ∈ p.spots s around, ∀ step ∈ spot.steps, IsPlainTag step.1 := by
  induction p using induction generalizing around with
  | step p ih =>
    intro spot member step inSteps
    rw [spots_eq, List.mem_cons, innerSpots, mem_spotsAll] at member
    rcases member with rfl | ⟨i, c, inner, at_i, inside, rfl⟩
    · cases inSteps
    · have child := List.mem_of_getElem? at_i
      rcases List.mem_cons.1 inSteps with rfl | later
      · exact (plain.children c child).tag
      · exact ih c child (plain.children c child) inner inside step later

theorem Plain.examine {p : Piece} (plain : p.Plain) (mode : Mode) : (p.examine mode).Plain := by
  induction p using induction with
  | step p ih =>
    cases settled : p.settled with
    | true => rwa [examine_of_settled mode settled]
    | false =>
      rw [examine_of_open mode settled]
      refine .intro _ plain.tag (List.forall_mem_map.2 fun c child => ?_)
      exact ih c child (plain.children c child)

end Piece

end ScoreScript
