import ScoreScript.Proofs.Building.Content

/-!
Accounts of elements: what was set, and the children in the order in which they came. Nothing is
logged or validated for an account, and children are put in order once, when the element is drawn
up from it. What construction makes is what an account says. Main statement: `construct_follows`.
-/

namespace ScoreScript

/-- How an element was made. -/
structure Account where
  id : TypeId
  type : ElementType
  /-- The field of the element around it that it was an argument for. -/
  slot : Option String := none
  attributes : Assoc String := []
  text : Option String := none
  /-- The children as they came. -/
  arrivals : List Account := []

namespace Account

mutual

/-- The element of an account: the children are put in order once. -/
def element : Account → Element
  | ⟨_, type, _, attributes, text, arrivals⟩ =>
    { tag := type.tag, attributes, children := Element.sorted type.order (elements arrivals), text }

def elements : List Account → List Element
  | [] => []
  | a :: rest => a.element :: elements rest

end

def setText (text : String) (a : Account) : Account :=
  { a with text := some text }

def setAttribute (name value : String) (a : Account) : Account :=
  { a with attributes := a.attributes.put name value }

/-- One more child came. -/
def arrive (a child : Account) : Account :=
  { a with arrivals := a.arrivals ++ [child] }

/-- The element was an argument for a field. -/
def through (field : String) (a : Account) : Account :=
  { a with slot := some field }

/-- The account of an element without content, if its type takes so many positional arguments and
these names. -/
def start (c : Catalogue) (id : TypeId) (given : Nat) (names : List String) : Option Account := do
  let type ← c.get? id
  if type.fields.length < given then none
  else
    match firstRepeated? (Assoc.keys (type.fields.take given)) names with
    | some _ => none
    | none => return { id, type }

/-- Give a value to a field. -/
def give (name : String) (v : Value) (make : TypeId → Option Account) (a : Account) :
    Option Account :=
  if v.isNone then some a
  else
    match a.type.field? name with
    | none => none
    | some .text => some (a.setText v.display)
    | some (.attr name _) => some (a.setAttribute name v.display)
    | some (.child slot) =>
      match v with
      | .element _ => none
      | _ => (make slot).map fun child => a.arrive (child.through name)

end Account

/-- The account of an element whose first field gets a value that is no collection of arguments. -/
def plainAccount (c : Catalogue) (v : Value) : (room : Nat) → TypeId → Option Account
  | 0, _ => none
  | room + 1, id => do
    let a ← Account.start c id 1 []
    match a.type.fields with
    | [] => return a
    | (_, .text) :: _ => return a.setText v.display
    | (_, .attr name _) :: _ => return a.setAttribute name v.display
    | (field, .child slot) :: _ =>
      (plainAccount c v room slot).map fun child => a.arrive (child.through field)

mutual

/-- The account of the element that a value stands for. -/
def Value.toAccount (c : Catalogue) (id : TypeId) : Value → Option Account
  | .bundle ⟨positional, named⟩ => do
    let a ← Account.start c id positional.length (Assoc.keys named)
    let a ← accountInTurn c positional a.type.fields a
    accountNamed c named a
  | .tuple items => do
    let a ← Account.start c id items.length []
    accountInTurn c items a.type.fields a
  | .map entries => do
    let a ← Account.start c id 0 (Assoc.keys entries)
    accountNamed c entries a
  | v => plainAccount c v (c.size + 1) id

def accountInTurn (c : Catalogue) :
    List Value → (fields : List (String × Field)) → Account → Option Account
  | v :: rest, (name, _) :: fields, a => do
    let a ← a.give name v fun slot => v.toAccount c slot
    accountInTurn c rest fields a
  | _, _, a => some a

def accountNamed (c : Catalogue) : List (String × Value) → Account → Option Account
  | (name, v) :: rest, a => do
    let a ← a.give name v fun slot => v.toAccount c slot
    accountNamed c rest a
  | [], a => some a

end

/-! ### Elements of accounts -/

namespace Element

theorem unmarked_setText (e : Element) (text : String) :
    (e.setText text).unmarked = { e.unmarked with text := some text } := by
  rw [unmarked_eq, unmarked_eq e, setText]

theorem unmarked_setAttribute (e : Element) (name value : String) :
    (e.setAttribute name value).unmarked =
      { e.unmarked with attributes := e.unmarked.attributes.put name value } := by
  rw [unmarked_eq, unmarked_eq e, setAttribute]

theorem unmarked_addChild (e child : Element) :
    (e.addChild child).unmarked =
      { e.unmarked with children := e.unmarked.children ++ [child.unmarked] } := by
  rw [unmarked_eq, unmarked_eq e, addChild, List.map_append, List.map_singleton]

theorem unmarked_sortChildren (order : List String) (e : Element) :
    (e.sortChildren order).unmarked =
      { e.unmarked with children := sorted order e.unmarked.children } := by
  obtain ⟨tag, attributes, text⟩ := sortChildren_keeps order e
  rw [unmarked_eq, unmarked_eq e, children_sortChildren, tag, attributes, text,
    map_sorted fun e => by rw [unmarked_eq]]

end Element

namespace Account

theorem elements_eq_map (arrivals : List Account) : elements arrivals = arrivals.map element := by
  induction arrivals with
  | nil => rfl
  | cons a rest ih => rw [elements, ih, List.map_cons]

theorem element_eq (a : Account) :
    a.element =
      { tag := a.type.tag, attributes := a.attributes,
        children := Element.sorted a.type.order (a.arrivals.map element), text := a.text } := by
  cases a
  rw [element, elements_eq_map]

theorem setText_element (text : String) (a : Account) :
    (a.setText text).element = { a.element with text := some text } := by
  rw [element_eq, element_eq a, setText]

theorem setAttribute_element (name value : String) (a : Account) :
    (a.setAttribute name value).element =
      { a.element with attributes := a.element.attributes.put name value } := by
  rw [element_eq, element_eq a, setAttribute]

/-- A child that comes later can be put in order with those that are in order already. -/
theorem arrive_element (a child : Account) :
    (a.arrive child).element =
      { a.element with
        children := Element.sorted a.type.order (a.element.children ++ [child.element]) } := by
  rw [element_eq, element_eq a, Element.sorted_append, arrive, List.map_append, List.map_singleton]

/-- What an element was an argument for does not show in it. -/
theorem through_element (field : String) (a : Account) : (a.through field).element = a.element := by
  rw [element_eq, element_eq a, through]

/-- A draft is what the account says. -/
structure Holds (a : Account) (d : Draft) : Prop where
  type : d.type = a.type
  element : d.element.unmarked = a.element

namespace Holds

variable {a : Account} {d : Draft}

theorem setText (holds : a.Holds d) (text : String) :
    (a.setText text).Holds (d.setText text) := by
  refine ⟨holds.type, ?_⟩
  rw [setText_element, Draft.setText, Element.unmarked_setText, holds.element]

theorem setAttribute (holds : a.Holds d) (name value : String) :
    (a.setAttribute name value).Holds (d.setAttribute name value) := by
  refine ⟨holds.type, ?_⟩
  rw [setAttribute_element, Draft.setAttribute, Element.unmarked_setAttribute, holds.element]

/-- A child is put in order as soon as it comes, and validation shows in marks only. -/
theorem attach (holds : a.Holds d) {child : Account} {e : Element}
    (same : e.unmarked = child.element) (span : Span) (log : Log) :
    (a.arrive child).Holds (d.attach span e log).1 := by
  have checked := (Draft.check_keeps .tolerant span
    { d with element := (d.element.addChild e).sortChildren d.type.order } log).2
  refine ⟨holds.type, checked.trans ?_⟩
  rw [Element.unmarked_sortChildren, Element.unmarked_addChild, holds.element, same, holds.type,
    arrive_element]

end Holds

end Account

/-! ### Construction -/

section Following

variable {α β γ δ : Type} {R : α → β → Prop} {S : γ → δ → Prop}

/-- A result is what was drawn up, or both are failures. -/
inductive Meets (R : α → β → Prop) : Option α → Except Error β → Prop
  | made {a : α} {b : β} (same : R a b) : Meets R (some a) (.ok b)
  | failed {e : Error} : Meets R none (.error e)

/-- Work on a log comes to what was drawn up without one, whatever was logged before. -/
def Follows (R : α → β → Prop) (drawn : Option α) (work : Making β) : Prop :=
  ∀ log, Meets R drawn (work.run log).1

namespace Follows

theorem pure {a : α} {b : β} (same : R a b) : Follows R (some a) (Pure.pure b) :=
  fun _ => .made same

theorem throw (e : Error) : Follows R none (MonadExcept.throw e) :=
  fun _ => .failed

/-- Work that does not fail. -/
theorem liftState {a : α} {work : StateM Log β} (same : ∀ log, R a (work log).1) :
    Follows R (some a) (MonadLift.monadLift work) :=
  fun log => .made (same log)

theorem bind {drawn : Option α} {work : Making β} {next : α → Option γ} {rest : β → Making δ}
    (first : Follows R drawn work) (later : ∀ a b, R a b → Follows S (next a) (rest b)) :
    Follows S (drawn >>= next) (work >>= rest) := by
  intro log
  have here := first log
  rw [run_bind]
  cases ran : work.run log with
  | mk result log' =>
    rw [ran] at here
    cases here with
    | made same => exact later _ _ same log'
    | failed => exact .failed

theorem map {drawn : Option α} {work : Making β} {f : α → γ} {rest : β → Making δ}
    (first : Follows R drawn work) (later : ∀ a b, R a b → Follows S (some (f a)) (rest b)) :
    Follows S (drawn.map f) (work >>= rest) := by
  rw [Option.map_eq_bind]
  exact first.bind later

/-- What is made of the result in the end. -/
theorem result {T : α → δ → Prop} {drawn : Option α} {work : Making β} {f : β → δ}
    (first : Follows R drawn work) (same : ∀ a b, R a b → T a (f b)) :
    Follows T drawn (work >>= fun b => Pure.pure (f b)) := by
  rw [← Option.bind_fun_some drawn]
  exact first.bind fun a b here => .pure (same a b here)

end Follows

end Following

/-- An element is what its account says. -/
def Account.Draws (a : Account) (e : Element) : Prop :=
  e.unmarked = a.element

namespace Account

theorem start_follows (c : Catalogue) (span : Span) (id : TypeId) (given : Nat)
    (names : List String) :
    Follows Holds (start c id given names)
      (MonadLift.monadLift (Draft.start c span id given names)) := by
  intro log
  rw [run_liftExcept]
  unfold start Draft.start Catalogue.element
  cases c.get? id with
  | none => exact .failed
  | some type =>
    simp only [Bind.bind, Except.bind, Option.bind]
    by_cases many : type.fields.length < given
    · rw [if_pos many, if_pos many]
      exact .failed
    · rw [if_neg many, if_neg many]
      cases firstRepeated? (Assoc.keys (type.fields.take given)) names with
      | none =>
        refine .made ⟨rfl, ?_⟩
        rw [element_eq, List.map_nil, Element.sorted_nil]
        rfl
      | some name => exact .failed

theorem give_follows {a : Account} {d : Draft} (holds : a.Holds d) (span : Span) (name : String)
    (v : Value) {make : TypeId → Option Account} {work : TypeId → Making Element}
    (made : ∀ slot, Follows Draws (make slot) (work slot)) :
    Follows Holds (a.give name v make) (d.give span name v work) := by
  unfold give Draft.give
  rw [holds.type]
  split
  · exact .pure holds
  · cases a.type.field? name with
    | none => exact .throw _
    | some field =>
      cases field with
      | text => exact .pure (holds.setText _)
      | attr name ns => exact .pure (holds.setAttribute name _)
      | child slot =>
        cases v with
        | element tag => exact .throw _
        | _ =>
          refine (made slot).map fun child e same => .liftState fun log => ?_
          exact holds.attach (same.trans (through_element name child).symm) span log

end Account

theorem plainElement_follows (c : Catalogue) (span : Span) (v : Value) (room : Nat) (id : TypeId) :
    Follows Account.Draws (plainAccount c v room id) (plainElement c span v room id) := by
  induction room generalizing id with
  | zero => exact .throw _
  | succ room ih =>
    unfold plainAccount plainElement
    refine (Account.start_follows c span id 1 []).bind fun a d holds => ?_
    rw [holds.type]
    cases a.type.fields with
    | nil => exact .pure holds.element
    | cons first rest =>
      obtain ⟨field, kind⟩ := first
      cases kind with
      | text => exact .pure (holds.setText _).element
      | attr name ns => exact .pure (holds.setAttribute _ _).element
      | child slot =>
        -- The child comes through the first field as it would through a named one.
        refine (ih slot).map fun child e same => ?_
        refine .result (.liftState fun log => ?_) fun _ _ => Account.Holds.element
        exact holds.attach (same.trans (Account.through_element field child).symm) span log

mutual

theorem toElement_follows (c : Catalogue) (span : Span) (id : TypeId) :
    (v : Value) → Follows Account.Draws (v.toAccount c id) (v.toElement c span id)
  | .bundle ⟨positional, named⟩ => by
    unfold Value.toAccount Value.toElement
    refine (Account.start_follows c span id _ _).bind fun a d holds => ?_
    rw [holds.type]
    refine (giveInTurn_follows c span positional _ holds).bind fun a d holds => ?_
    exact (giveNamed_follows c span named holds).result fun _ _ => Account.Holds.element
  | .tuple items => by
    unfold Value.toAccount Value.toElement
    refine (Account.start_follows c span id _ _).bind fun a d holds => ?_
    rw [holds.type]
    exact (giveInTurn_follows c span items _ holds).result fun _ _ => Account.Holds.element
  | .map entries => by
    unfold Value.toAccount Value.toElement
    refine (Account.start_follows c span id _ _).bind fun a d holds => ?_
    exact (giveNamed_follows c span entries holds).result fun _ _ => Account.Holds.element
  | .none | .bool _ | .int _ | .float _ | .str _ | .bytes _ | .element _ | .type _ | .helper => by
    unfold Value.toAccount Value.toElement
    exact plainElement_follows c span _ _ id

theorem giveInTurn_follows (c : Catalogue) (span : Span) :
    (values : List Value) → (fields : List (String × Field)) → {a : Account} → {d : Draft} →
      a.Holds d → Follows Account.Holds (accountInTurn c values fields a)
        (giveInTurn c span values fields d)
  | v :: rest, (name, field) :: fields, a, d, holds => by
    unfold accountInTurn giveInTurn
    refine (Account.give_follows holds span name v fun slot => ?_).bind fun a d holds => ?_
    · exact toElement_follows c span slot v
    · exact giveInTurn_follows c span rest fields holds
  | [], _, a, d, holds => by
    unfold accountInTurn giveInTurn
    exact .pure holds
  | _ :: _, [], a, d, holds => by
    unfold accountInTurn giveInTurn
    exact .pure holds

theorem giveNamed_follows (c : Catalogue) (span : Span) :
    (entries : List (String × Value)) → {a : Account} → {d : Draft} →
      a.Holds d → Follows Account.Holds (accountNamed c entries a) (giveNamed c span entries d)
  | (name, v) :: rest, a, d, holds => by
    unfold accountNamed giveNamed
    refine (Account.give_follows holds span name v fun slot => ?_).bind fun a d holds => ?_
    · exact toElement_follows c span slot v
    · exact giveNamed_follows c span rest holds
  | [], a, d, holds => by
    unfold accountNamed giveNamed
    exact .pure holds

end

/-- Construction makes the element of an account, or fails where there is none. -/
theorem construct_follows (c : Catalogue) (span : Span) (id : TypeId) (args : Arguments) :
    Follows Account.Draws ((Value.bundle args).toAccount c id) (construct c span id args) :=
  toElement_follows c span id (.bundle args)

/-- Either there is an account and its element is made, or there is none and construction fails. -/
theorem construct_cases (c : Catalogue) (span : Span) (id : TypeId) (args : Arguments) (log : Log) :
    (∃ e log', (Value.bundle args).toAccount c id = none ∧
      (construct c span id args).run log = (.error e, log')) ∨
    ∃ a e log', (Value.bundle args).toAccount c id = some a ∧
      (construct c span id args).run log = (.ok e, log') ∧ a.Draws e := by
  have meets := construct_follows c span id args log
  cases done : (construct c span id args).run log with
  | mk result log' =>
    rw [done] at meets
    generalize (Value.bundle args).toAccount c id = drawn at meets
    cases meets with
    | made same => exact .inr ⟨_, _, log', rfl, rfl, same⟩
    | failed => exact .inl ⟨_, log', rfl, rfl⟩

end ScoreScript
