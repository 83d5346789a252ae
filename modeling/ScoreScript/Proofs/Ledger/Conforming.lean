import ScoreScript.Proofs.Ledger.Account

/-!
Accounts that conform to a catalogue: each is of a type there, and has only what the fields of that
type give it. Whatever values construction gets, the account that it follows conforms, with those of
all elements inside. Main statement: `toAccount_conforms`.
-/

namespace ScoreScript

namespace Account

/-- The account `n` is `a` or that of an element somewhere inside. -/
inductive Occurs (n : Account) : Account → Prop where
  | self : Occurs n n
  | child {b a : Account} (member : b ∈ a.arrivals) (below : Occurs n b) : Occurs n a

/-- A property of the account and of all those inside. -/
def Everywhere (P : Account → Prop) (a : Account) : Prop :=
  ∀ n, Occurs n a → P n

theorem everywhere_iff {P : Account → Prop} {a : Account} :
    a.Everywhere P ↔ P a ∧ ∀ b ∈ a.arrivals, b.Everywhere P := by
  constructor
  · intro all
    exact ⟨all a .self, fun b member n below => all n (.child member below)⟩
  · rintro ⟨here, inside⟩ n occurs
    cases occurs with
    | self => exact here
    | child member below => exact inside _ member n below

/-- An element has what the fields of its type give it, and a child that was an argument for a field
is of the type that the field is for. -/
structure Conforms (c : Catalogue) (a : Account) : Prop where
  known : c.get? a.id = some a.type
  attributes : ∀ entry ∈ a.attributes, ∃ field ns, a.type.field? field = some (.attr entry.1 ns)
  distinct : (Assoc.keys a.attributes).Nodup
  text : a.text ≠ none → ∃ field, a.type.field? field = some .text
  slots : ∀ child ∈ a.arrivals, ∀ field, child.slot = some field →
    a.type.field? field = some (.child child.id)

/-- An account of a type with this number, that conforms with all those inside and was no argument
yet. -/
structure Fits (c : Catalogue) (id : TypeId) (a : Account) : Prop where
  id : a.id = id
  free : a.slot = none
  conforms : a.Everywhere (Conforms c)

namespace Fits

variable {c : Catalogue} {id : TypeId} {a : Account}

theorem here (fits : a.Fits c id) : a.Conforms c :=
  (everywhere_iff.1 fits.conforms).1

theorem inside (fits : a.Fits c id) : ∀ b ∈ a.arrivals, b.Everywhere (Conforms c) :=
  (everywhere_iff.1 fits.conforms).2

theorem known (fits : a.Fits c id) : c.get? id = some a.type :=
  fits.id ▸ fits.here.known

theorem start {given : Nat} {names : List String} (started : start c id given names = some a) :
    a.Fits c id := by
  unfold Account.start at started
  obtain ⟨type, known, started⟩ := Option.bind_eq_some_iff.1 started
  split at started
  · cases started
  · split at started
    · cases started
    · cases started
      exact ⟨rfl, rfl, everywhere_iff.2 ⟨⟨known, nofun, .nil, (absurd rfl ·), nofun⟩, nofun⟩⟩

theorem setText (fits : a.Fits c id) {field : String} (there : a.type.field? field = some .text)
    (text : String) : (a.setText text).Fits c id := by
  have here := fits.here
  refine ⟨fits.id, fits.free, everywhere_iff.2 ⟨{ here with text := ?_ }, fits.inside⟩⟩
  exact fun _ => ⟨field, there⟩

theorem setAttribute (fits : a.Fits c id) {field name : String} {ns : Option String}
    (there : a.type.field? field = some (.attr name ns)) (value : String) :
    (a.setAttribute name value).Fits c id := by
  have here := fits.here
  refine ⟨fits.id, fits.free, everywhere_iff.2 ⟨{ here with
    attributes := fun entry member => ?_
    distinct := Assoc.nodup_keys_put here.distinct name value }, fits.inside⟩⟩
  rcases Assoc.mem_put member with rfl | old
  · exact ⟨field, ns, there⟩
  · exact here.attributes entry old

/-- A child that was no argument may be of any type. -/
theorem arrive (fits : a.Fits c id) {child : Account} (conforms : child.Everywhere (Conforms c))
    (placed : ∀ field, child.slot = some field → a.type.field? field = some (.child child.id)) :
    (a.arrive child).Fits c id := by
  have here := fits.here
  refine ⟨fits.id, fits.free, everywhere_iff.2 ⟨{ here with slots := ?_ }, ?_⟩⟩
  · exact List.forall_mem_append.2 ⟨here.slots, List.forall_mem_singleton.2 placed⟩
  · exact List.forall_mem_append.2 ⟨fits.inside, List.forall_mem_singleton.2 conforms⟩

theorem arriveThrough (fits : a.Fits c id) {field : String} {slot : TypeId} {child : Account}
    (there : a.type.field? field = some (.child slot)) (made : child.Fits c slot) :
    (a.arrive (child.through field)).Fits c id := by
  have conforms : (child.through field).Everywhere (Conforms c) :=
    everywhere_iff.2 ⟨{ made.here with }, made.inside⟩
  refine fits.arrive conforms fun other same => ?_
  cases same
  rw [there, ← made.id]
  rfl

theorem give {a' : Account} (fits : a.Fits c id) {name : String} {v : Value}
    {make : TypeId → Option Account}
    (made : ∀ slot child, make slot = some child → child.Fits c slot)
    (given : a.give name v make = some a') : a'.Fits c id := by
  unfold Account.give at given
  split at given
  · cases given
    exact fits
  · split at given
    · cases given
    · rename_i there
      cases given
      exact fits.setText there _
    · rename_i there
      cases given
      exact fits.setAttribute there _
    · rename_i slot there
      split at given
      · cases given
      · obtain ⟨child, done, rfl⟩ := Option.map_eq_some_iff.1 given
        exact fits.arriveThrough there (made slot child done)

end Fits

end Account

open Account (Fits)

theorem plainAccount_conforms {c : Catalogue} {v : Value} {room : Nat} {id : TypeId} {a : Account}
    (made : plainAccount c v room id = some a) : Fits c id a := by
  induction room generalizing id a with
  | zero => cases made
  | succ room ih =>
    unfold plainAccount at made
    obtain ⟨b, started, made⟩ := Option.bind_eq_some_iff.1 made
    have fits := Fits.start started
    split at made
    · cases made
      exact fits
    · rename_i fields
      cases made
      exact fits.setText (ElementType.field?_first fields) _
    · rename_i fields
      cases made
      exact fits.setAttribute (ElementType.field?_first fields) _
    · rename_i fields
      obtain ⟨child, done, rfl⟩ := Option.map_eq_some_iff.1 made
      exact fits.arriveThrough (ElementType.field?_first fields) (ih done)

mutual

theorem toAccount_conforms {c : Catalogue} {id : TypeId} {a : Account} :
    (v : Value) → v.toAccount c id = some a → Fits c id a
  | .bundle ⟨positional, named⟩, made => by
    unfold Value.toAccount at made
    obtain ⟨b, started, made⟩ := Option.bind_eq_some_iff.1 made
    obtain ⟨b', first, made⟩ := Option.bind_eq_some_iff.1 made
    exact accountNamed_conforms named (accountInTurn_conforms positional _ (.start started) first)
      made
  | .tuple items, made => by
    unfold Value.toAccount at made
    obtain ⟨b, started, made⟩ := Option.bind_eq_some_iff.1 made
    exact accountInTurn_conforms items _ (.start started) made
  | .map entries, made => by
    unfold Value.toAccount at made
    obtain ⟨b, started, made⟩ := Option.bind_eq_some_iff.1 made
    exact accountNamed_conforms entries (.start started) made
  | .none, made | .bool _, made | .int _, made | .float _, made | .str _, made | .bytes _, made
  | .element _, made | .type _, made | .helper, made => by
    unfold Value.toAccount at made
    exact plainAccount_conforms made

theorem accountInTurn_conforms {c : Catalogue} {id : TypeId} {a a' : Account} :
    (values : List Value) → (fields : List (String × Field)) → Fits c id a →
      accountInTurn c values fields a = some a' → Fits c id a'
  | v :: rest, (name, field) :: fields, fits, made => by
    unfold accountInTurn at made
    obtain ⟨b, given, made⟩ := Option.bind_eq_some_iff.1 made
    exact accountInTurn_conforms rest fields
      (fits.give (fun slot child done => toAccount_conforms v done) given) made
  | [], _, fits, made => by
    unfold accountInTurn at made
    cases made
    exact fits
  | _ :: _, [], fits, made => by
    unfold accountInTurn at made
    cases made
    exact fits

theorem accountNamed_conforms {c : Catalogue} {id : TypeId} {a a' : Account} :
    (entries : List (String × Value)) → Fits c id a →
      accountNamed c entries a = some a' → Fits c id a'
  | (name, v) :: rest, fits, made => by
    unfold accountNamed at made
    obtain ⟨b, given, made⟩ := Option.bind_eq_some_iff.1 made
    exact accountNamed_conforms rest
      (fits.give (fun slot child done => toAccount_conforms v done) given) made
  | [], fits, made => by
    unfold accountNamed at made
    cases made
    exact fits

end

end ScoreScript
