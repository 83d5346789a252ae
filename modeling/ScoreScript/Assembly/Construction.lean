import ScoreScript.Assembly.Draft

/-!
Elements made from arguments. Positional arguments are for the fields of the type in their
order. What a field gets is a text, or else the arguments of a child: those of a bundle, the
items of a tuple as positional ones, the entries of a mapping as named ones, and any other
value as the only one.
-/

namespace ScoreScript

/-- Work on a log that may fail; what was logged before a failure stays. -/
abbrev Making := ExceptT Error (StateM Log)

/-- The first name that is bound already, or comes a second time. -/
def firstRepeated? (bound : List String) : List String → Option String
  | [] => none
  | name :: rest => if bound.contains name then some name else firstRepeated? (name :: bound) rest

theorem firstRepeated?_eq_none {names : List String} :
    ∀ {bound : List String}, names.Nodup → (∀ name ∈ names, name ∉ bound) →
      firstRepeated? bound names = none := by
  induction names with
  | nil => exact fun _ _ => rfl
  | cons name rest ih =>
    intro bound distinct apart
    obtain ⟨new, distinct⟩ := List.nodup_cons.1 distinct
    obtain ⟨here, later⟩ := List.forall_mem_cons.1 apart
    rw [firstRepeated?, if_neg (by simpa using here)]
    refine ih distinct fun other member => ?_
    rw [List.mem_cons, not_or]
    exact ⟨fun same => new (same ▸ member), later other member⟩

/-- Names that are all new come a first time only. -/
theorem firstRepeated?_append {names more : List String} (distinct : more.Nodup) :
    ∀ {bound : List String}, (∀ name ∈ more, name ∉ bound) → (∀ name ∈ more, name ∉ names) →
      firstRepeated? bound (names ++ more) = firstRepeated? bound names := by
  induction names with
  | nil => exact fun apart _ => firstRepeated?_eq_none distinct apart
  | cons name rest ih =>
    intro bound apart new
    rw [List.cons_append, firstRepeated?, firstRepeated?]
    split
    · rfl
    · refine ih (fun other member => ?_) fun other member inside =>
        new other member (List.mem_cons_of_mem name inside)
      rw [List.mem_cons, not_or]
      exact ⟨fun same => new other member (same ▸ List.mem_cons_self), apart other member⟩

namespace Draft

/-- A draft without content, if its type takes so many positional arguments and these names. -/
def start (c : Catalogue) (span : Span) (id : TypeId) (given : Nat) (names : List String) :
    Except Error Draft := do
  let type ← c.element id
  if type.fields.length < given then
    throw ⟨.usage (.tooManyArguments type.name type.fields.length given), span⟩
  match firstRepeated? (Assoc.keys (type.fields.take given)) names with
  | some name => throw ⟨.usage (.duplicateArgument type.name name), span⟩
  | none => return ⟨type, .empty type.tag, []⟩

/-- Give a value to a field. `make` makes the child that the value stands for. -/
def give (span : Span) (name : String) (v : Value) (make : TypeId → Making Element)
    (d : Draft) : Making Draft :=
  if v.isNone then return d
  else
    match d.type.field? name with
    | none => throw ⟨.usage (.unknownField d.type.name name), span⟩
    | some .text => return d.setText v.display
    | some (.attr name _) => return d.setAttribute name v.display
    | some (.child slot) =>
      match v with
      | .element _ => throw ⟨.usage (.prebuiltChild d.type.name name), span⟩
      | _ => do
        let child ← make slot
        d.attach span child

end Draft

/-- An element whose first field gets a value that is no collection of arguments. If the first
field holds a child, the value is passed on to it, through at most `room` types. -/
def plainElement (c : Catalogue) (span : Span) (v : Value) : (room : Nat) → TypeId → Making Element
  | 0, _ => throw (.bare (.schema (.endlessField v.literal)))
  | room + 1, id => do
    let d ← Draft.start c span id 1 []
    match d.type.fields with
    | [] => return d.element
    | (_, .text) :: _ => return (d.setText v.display).element
    | (_, .attr name _) :: _ => return (d.setAttribute name v.display).element
    | (_, .child slot) :: _ =>
      let child ← plainElement c span v room slot
      return (← d.attach span child).element

mutual

/-- The element of type `id` that a value stands for. -/
def Value.toElement (c : Catalogue) (span : Span) (id : TypeId) : Value → Making Element
  | .bundle ⟨positional, named⟩ => do
    let d ← Draft.start c span id positional.length (Assoc.keys named)
    let d ← giveInTurn c span positional d.type.fields d
    return (← giveNamed c span named d).element
  | .tuple items => do
    let d ← Draft.start c span id items.length []
    return (← giveInTurn c span items d.type.fields d).element
  | .map entries => do
    let d ← Draft.start c span id 0 (Assoc.keys entries)
    return (← giveNamed c span entries d).element
  | v => plainElement c span v (c.size + 1) id

/-- Give values to fields in turn. -/
def giveInTurn (c : Catalogue) (span : Span) :
    List Value → (fields : List (String × Field)) → Draft → Making Draft
  | v :: rest, (name, _) :: fields, d => do
    let d ← d.give span name v fun slot => v.toElement c span slot
    giveInTurn c span rest fields d
  | _, _, d => return d

/-- Give values to fields by name. -/
def giveNamed (c : Catalogue) (span : Span) : List (String × Value) → Draft → Making Draft
  | (name, v) :: rest, d => do
    let d ← d.give span name v fun slot => v.toElement c span slot
    giveNamed c span rest d
  | [], d => return d

end

theorem giveInTurn_nil {c : Catalogue} {span : Span} {d : Draft} (fields : List (String × Field)) :
    giveInTurn c span [] fields d = return d := by
  unfold giveInTurn
  rfl

/-- The element that a type makes from arguments. -/
def construct (c : Catalogue) (span : Span) (id : TypeId) (args : Arguments) : Making Element :=
  Value.toElement c span id (.bundle args)

end ScoreScript
