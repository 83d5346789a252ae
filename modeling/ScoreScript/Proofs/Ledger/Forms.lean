import ScoreScript.Proofs.Catalogue.Closed
import ScoreScript.Proofs.Ledger.Calls
import ScoreScript.Proofs.Run.Reporting
import ScoreScript.Proofs.Ledger.Conforming

/-!
Documents conform to their catalogue. The document of a script is what the ledger of its calls says,
and in the ledger nothing has what its type does not give it. Main statement: `document_conforms`.
-/

namespace ScoreScript

/-- An element that this type can make: its attributes have the converted names of attribute fields,
each at most once, and it has a text only if there is the field for it. -/
structure ElementType.Allows (type : ElementType) (e : Element) : Prop where
  tag : e.tag = type.tag
  attributes : ∀ entry ∈ e.attributes, ∃ field ns,
    type.field? field = some (.attr entry.1 ns) ∧ entry.1 = Naming.attributeName field ns
  distinct : (Assoc.keys e.attributes).Nodup
  text : e.text ≠ none → type.field? textField = some .text

namespace Account

variable {text : String} {c : Catalogue} {a : Account}

/-- What the fields of a type give its elements they have under converted names. -/
theorem Conforms.allows (conforms : a.Conforms c) (read : Catalogue.ofText text = .ok c) :
    a.type.Allows a.element := by
  rw [element_eq]
  refine ⟨rfl, fun entry member => ?_, conforms.distinct, fun present => ?_⟩
  · obtain ⟨field, ns, there⟩ := conforms.attributes entry member
    exact ⟨field, ns, there, (Catalogue.named_of_field? read conforms.known there).2.2⟩
  · obtain ⟨field, there⟩ := conforms.text present
    obtain rfl : field = textField := Catalogue.named_of_field? read conforms.known there
    exact there

/-- Every element inside is what an account inside says. -/
theorem Draws.occurs {a : Account} {e n : Element} (same : a.Draws e) (inside : n.Occurs e) :
    ∃ b, Occurs b a ∧ b.Draws n := by
  induction inside generalizing a with
  | self => exact ⟨a, .self, same⟩
  | @child child e member below ih =>
    have children : e.children.map Element.unmarked =
        Element.sorted a.type.order (a.arrivals.map element) := by
      have contents := congrArg Element.children same
      rwa [Element.unmarked_eq, element_eq] at contents
    have among := List.mem_map_of_mem (f := Element.unmarked) member
    rw [children, (Element.stableSort_sorted _ _).perm.mem_iff] at among
    obtain ⟨b, arrived, drawn⟩ := List.mem_map.1 among
    obtain ⟨n', deeper, same'⟩ := ih drawn.symm
    exact ⟨n', .child arrived deeper, same'⟩

end Account

/-- A data file with the types of measures and beats. -/
def Beats.types : String :=
  "\x7b\"types\": \x7b\"Measure\": \x7b\"fields\": [\"number\", \"Beats\"]\x7d, " ++
    "\"Beats\": \x7b\"fields\": [\"content\"]\x7d\x7d\x7d"

end ScoreScript

/-!
Two ways to make an element with children: to give the children to its constructor as bundles, or to
open the element and make them inside it. Both follow one account, so they come to the same element
in the same place. Main statement: `create_eq_inScope`.
-/

namespace ScoreScript

/-- Arguments for a child: the field that a constructor takes them for, the type that this field is
for, and where the child is made if it is made on its own. -/
structure ChildArguments where
  field : String
  slot : TypeId
  args : Arguments
  span : Span

namespace ChildArguments

/-- The bundle for a constructor. -/
def bundle (child : ChildArguments) : String × Value :=
  (child.field, .bundle child.args)

end ChildArguments

namespace Assembly

/-- Make an element, its children being arguments. -/
def createWith (kit : Kit) (id : TypeId) (named : List (String × Value))
    (children : List ChildArguments) (span : Span) : Step Unit :=
  create kit id ⟨[], named ++ children.map (·.bundle)⟩ span

def createAll (kit : Kit) (children : List ChildArguments) : Step Unit :=
  children.forM fun child => create kit child.slot child.args child.span

/-- Open an element, make its children inside it, and close it. -/
def inScope (kit : Kit) (id : TypeId) (named : List (String × Value))
    (children : List ChildArguments) (span : Span) : Step Unit := do
  let token ← openScope kit id ⟨[], named⟩ span
  createAll kit children
  close kit token

/-- The element was put where it belongs, and all else is as it was. -/
def Receives (e : Element) (a a' : Assembly) : Prop :=
  match a.frames with
  | [] => a'.frames = [] ∧ a'.root = some e
  | top :: below => a'.root = a.root ∧ ∃ draft, a'.frames = { top with draft } :: below ∧
      draft.type = top.draft.type ∧
      draft.element.unmarked =
        ((top.draft.element.addChild e).sortChildren top.draft.type.order).unmarked

/-- The same elements are open, and they hold the same, as do the roots. -/
structure Alike (a a' : Assembly) : Prop where
  frames : List.Forall₂ (fun f f' : Frame => f.id = f'.id ∧ f.scope = f'.scope ∧
    f.draft.type = f'.draft.type ∧ f.draft.element.unmarked = f'.draft.element.unmarked)
    a.frames a'.frames
  root : a.root.map Element.unmarked = a'.root.map Element.unmarked

theorem attach_receives (span : Span) (e : Element) (a : Assembly) :
    Receives e a (attach span e a).2 := by
  unfold Receives
  cases frames : a.frames with
  | nil =>
    rw [attach_nil frames]
    exact ⟨frames, rfl⟩
  | cons top below =>
    rw [attach_frame frames]
    have checked := (Draft.check_keeps .tolerant span { top.draft with
      element := (top.draft.element.addChild e).sortChildren top.draft.type.order } a.log).2
    exact ⟨rfl, _, rfl, rfl, checked⟩

/-- It does not matter what was logged, or which numbers scopes had. -/
theorem Receives.congr {e : Element} {a b a' : Assembly} (receives : Receives e a a')
    (frames : a.frames = b.frames) (root : a.root = b.root) : Receives e b a' := by
  unfold Receives at *
  rwa [← frames, ← root]

/-- Elements that hold the same make what receives them alike. -/
theorem Receives.alike {e e' : Element} {a b b' : Assembly} (first : Receives e a b)
    (second : Receives e' a b') (same : e.unmarked = e'.unmarked) : Alike b b' := by
  unfold Receives at first second
  cases frames : a.frames with
  | nil =>
    rw [frames] at first second
    obtain ⟨closed, root⟩ := first
    obtain ⟨closed', root'⟩ := second
    refine ⟨?_, ?_⟩
    · rw [closed, closed']
      exact .nil
    · rw [root, root']
      exact congrArg some same
  | cons top below =>
    rw [frames] at first second
    obtain ⟨root, draft, opened, type, content⟩ := first
    obtain ⟨root', draft', opened', type', content'⟩ := second
    refine ⟨?_, by rw [root, root']⟩
    rw [opened, opened']
    refine .cons ⟨rfl, rfl, type.trans type'.symm, ?_⟩ (List.forall₂_same.2 fun _ _ => ?_)
    · rw [content, content', Element.unmarked_sortChildren, Element.unmarked_sortChildren,
        Element.unmarked_addChild, Element.unmarked_addChild, same]
    · exact ⟨rfl, rfl, rfl, rfl⟩

end Assembly

/-! ### Accounts of children -/

theorem accountNamed_append (c : Catalogue) (entries more : List (String × Value)) (a : Account) :
    accountNamed c (entries ++ more) a = accountNamed c entries a >>= accountNamed c more := by
  induction entries generalizing a with
  | nil => rfl
  | cons entry rest ih =>
    obtain ⟨name, v⟩ := entry
    rw [List.cons_append, accountNamed, accountNamed]
    cases a.give name v fun slot => v.toAccount c slot with
    | none => rfl
    | some a' => exact ih a'

theorem accountNamed_bundle {c : Catalogue} {a : Account} {child : ChildArguments}
    (slot : a.type.field? child.field = some (.child child.slot))
    (rest : List (String × Value)) :
    accountNamed c (child.bundle :: rest) a =
      ((Value.bundle child.args).toAccount c child.slot).bind fun made =>
        accountNamed c rest (a.arrive (made.through child.field)) := by
  have given (make : TypeId → Option Account) : a.give child.field (.bundle child.args) make =
      (make child.slot).map fun made => a.arrive (made.through child.field) := by
    rw [Account.give, slot]
    rfl
  rw [ChildArguments.bundle, accountNamed, given]
  cases (Value.bundle child.args).toAccount c child.slot <;> rfl

theorem accountInTurn_nil (c : Catalogue) (fields : List (String × Field)) (a : Account) :
    accountInTurn c [] fields a = some a := by
  unfold accountInTurn
  rfl

/-- More names that are all new do not keep an element from being started. -/
theorem Account.start_append (c : Catalogue) (id : TypeId) {names more : List String}
    (distinct : more.Nodup) (new : ∀ name ∈ more, name ∉ names) :
    start c id 0 (names ++ more) = start c id 0 names := by
  have same (fields : Assoc Field) : firstRepeated? (Assoc.keys (fields.take 0)) (names ++ more) =
      firstRepeated? (Assoc.keys (fields.take 0)) names :=
    firstRepeated?_append distinct (fun _ _ => List.not_mem_nil) new
  simp only [start, same]

section Forms

variable {kit : Kit} {id : TypeId} {type : ElementType} {named : List (String × Value)}
  {children : List ChildArguments}

/-- A constructor takes its children after its own arguments. -/
theorem toAccount_children
    (own : ∀ entry ∈ named, ∀ slot, type.field? entry.1 ≠ some (.child slot))
    (distinct : (children.map (·.field)).Nodup)
    (slots : ∀ child ∈ children, type.field? child.field = some (.child child.slot)) :
    (Value.bundle ⟨[], named ++ children.map (·.bundle)⟩).toAccount kit.catalogue id =
      ((Value.bundle ⟨[], named⟩).toAccount kit.catalogue id).bind
        (accountNamed kit.catalogue (children.map (·.bundle))) := by
  have fields : Assoc.keys (children.map (·.bundle)) = children.map (·.field) := by
    rw [Assoc.keys, List.map_map]
    rfl
  have names : Assoc.keys (named ++ children.map (·.bundle)) =
      Assoc.keys named ++ children.map (·.field) := by
    rw [← fields, Assoc.keys, List.map_append]
    rfl
  have new : ∀ name ∈ children.map (·.field), name ∉ Assoc.keys named := by
    intro name member taken
    obtain ⟨child, inside, rfl⟩ := List.mem_map.1 member
    obtain ⟨entry, there, same⟩ := List.mem_map.1 taken
    exact own entry there child.slot (same ▸ slots child inside)
  rw [Value.toAccount, Value.toAccount, names, List.length_nil,
    Account.start_append kit.catalogue id distinct new]
  cases Account.start kit.catalogue id 0 (Assoc.keys named) with
  | none => rfl
  | some a =>
    simp only [Option.bind_eq_bind, Option.bind_some, accountInTurn_nil, accountNamed_append]

namespace Assembly

open Account (Holds)

/-- Children that are made inside an open element are those that its account would get as
arguments. -/
theorem createAll_follows {g : Account} {f : Frame} {below : List Frame}
    (holds : g.Holds f.draft)
    (slots : ∀ child ∈ children, g.type.field? child.field = some (.child child.slot))
    {s : Assembly} (frames : s.frames = f :: below) :
    (accountNamed kit.catalogue (children.map (·.bundle)) g = none ∧
      ∃ e s', (createAll kit children).run s = (.error e, s')) ∨
    ∃ g' draft s', accountNamed kit.catalogue (children.map (·.bundle)) g = some g' ∧
      (createAll kit children).run s = (.ok (), s') ∧
      s'.frames = { f with draft } :: below ∧ s'.root = s.root ∧ g'.Holds draft := by
  induction children generalizing g f s with
  | nil => exact .inr ⟨g, f.draft, s, rfl, rfl, frames, rfl, holds⟩
  | cons child rest ih =>
    obtain ⟨slot, later⟩ := List.forall_mem_cons.1 slots
    have split : createAll kit (child :: rest) =
        create kit child.slot child.args child.span >>= fun _ => createAll kit rest := rfl
    rw [List.map_cons, accountNamed_bundle slot, split]
    rcases construct_cases kit.catalogue child.span child.slot child.args s.log with
      ⟨e, log, none, failed⟩ | ⟨made, e, log, entered, done, same⟩
    · rw [none]
      exact .inl ⟨rfl, e, _, run_bind_error (create_failed failed) _⟩
    · have created := create_made done
      have onTop : ({ s with log } : Assembly).frames = f :: below := frames
      rw [attach_frame onTop] at created
      -- The account of the child is that of an argument, which does not show in its element.
      have grown := holds.attach (same.trans (made.through_element child.field).symm) child.span log
      rw [entered, run_bind_ok created]
      exact ih (f := { f with draft := (f.draft.attach child.span e log).1 }) grown later rfl

/-- The step makes the element of an account and puts it where it belongs, or fails if there is no
account. -/
def Makes (drawn : Option Account) (step : Step Unit) (a : Assembly) : Prop :=
  (drawn = none ∧ ∃ e a', step.run a = (.error e, a')) ∨
  ∃ g e a', drawn = some g ∧ step.run a = (.ok (), a') ∧ g.Draws e ∧ Receives e a a'

theorem create_makes (kit : Kit) (id : TypeId) (args : Arguments) (span : Span) (a : Assembly) :
    Makes ((Value.bundle args).toAccount kit.catalogue id) (create kit id args span) a := by
  rcases construct_cases kit.catalogue span id args a.log with
    ⟨e, log, none, failed⟩ | ⟨made, e, log, entered, done, same⟩
  · exact .inl ⟨none, e, _, create_failed failed⟩
  · exact .inr ⟨made, e, _, entered, create_made done, same, attach_receives span e { a with log }⟩

theorem inScope_makes (lenient : kit.strict = false) (known : kit.catalogue.get? id = some type)
    (slots : ∀ child ∈ children, type.field? child.field = some (.child child.slot))
    (span : Span) (a : Assembly) :
    Makes (((Value.bundle ⟨[], named⟩).toAccount kit.catalogue id).bind
        (accountNamed kit.catalogue (children.map (·.bundle))))
      (inScope kit id named children span) a := by
  unfold inScope
  rcases construct_cases kit.catalogue span id ⟨[], named⟩ a.log with
    ⟨e, log, none, failed⟩ | ⟨g, e, log, entered, done, same⟩
  · rw [Makes, none]
    exact .inl ⟨rfl, e, _, run_bind_error (openScope_failed failed) _⟩
  · have typed := (toAccount_conforms _ entered).known
    obtain rfl : type = g.type := Option.some.inj (known.symm.trans typed)
    have holds : g.Holds ⟨g.type, e, []⟩ := ⟨rfl, same⟩
    obtain ⟨s, opened, onTop, root⟩ : ∃ s, (openScope kit id ⟨[], named⟩ span).run a =
        (.ok ⟨a.nextScope, id⟩, s) ∧
        s.frames = ⟨id, ⟨g.type, e, []⟩, a.nextScope, span⟩ :: a.frames ∧ s.root = a.root :=
      ⟨_, openScope_made known done, rfl, rfl⟩
    rw [Makes, entered, run_bind_ok opened]
    rcases createAll_follows (f := ⟨id, ⟨g.type, e, []⟩, a.nextScope, span⟩) holds slots onTop with
      ⟨none, e', s', failed⟩ | ⟨g', draft, s', some, made, frames, kept, held⟩
    · exact .inl ⟨none, e', s', run_bind_error failed _⟩
    · -- What is attached on closing is the element as it was checked last.
      have checked := (draft.check_keeps .strict span s'.log).2
      have attached := attach_receives span (draft.check .strict span s'.log).1.element
        { s' with frames := a.frames, log := (draft.check .strict span s'.log).2 }
      rw [run_bind_ok made, close_top_lenient lenient frames rfl]
      exact .inr ⟨g', _, _, some, rfl, checked.trans held.element,
        attached.congr rfl (kept.trans root)⟩

/-- Two steps that follow one account come to the same. -/
theorem Makes.agree {drawn : Option Account} {step step' : Step Unit} {a : Assembly}
    (first : Makes drawn step a) (second : Makes drawn step' a) :
    ((∃ b, step.run a = (.ok (), b)) ↔ ∃ b', step'.run a = (.ok (), b')) ∧
    ∀ b b', step.run a = (.ok (), b) → step'.run a = (.ok (), b') →
      (∃ e e', Receives e a b ∧ Receives e' a b' ∧ e.unmarked = e'.unmarked) ∧ Alike b b' := by
  rcases first with ⟨rfl, e, a', failed⟩ | ⟨g, e, b, rfl, done, drawn, receives⟩
  · rcases second with ⟨-, e', a'', failed'⟩ | ⟨g, e', b', none, -⟩
    · rw [failed, failed']
      exact ⟨⟨nofun, nofun⟩, nofun⟩
    · cases none
  · rcases second with ⟨none, -⟩ | ⟨g', e', b', same, done', drawn', receives'⟩
    · cases none
    · cases same
      rw [done, done']
      refine ⟨⟨fun _ => ⟨b', rfl⟩, fun _ => ⟨b, rfl⟩⟩, ?_⟩
      rintro _ _ ⟨⟩ ⟨⟩
      have same := drawn.trans drawn'.symm
      exact ⟨⟨e, e', receives, receives', same⟩, receives.alike receives' same⟩

end Assembly

/-- A constructor that gets its children as bundles makes what is made by opening the element,
making the children inside it and closing it. Both succeed, or neither does. -/
theorem create_eq_inScope (lenient : kit.strict = false)
    (known : kit.catalogue.get? id = some type)
    (own : ∀ entry ∈ named, ∀ slot, type.field? entry.1 ≠ some (.child slot))
    (distinct : (children.map (·.field)).Nodup)
    (slots : ∀ child ∈ children, type.field? child.field = some (.child child.slot))
    (span span' : Span) (a : Assembly) :
    ((∃ b, (Assembly.createWith kit id named children span).run a = (.ok (), b)) ↔
      ∃ b', (Assembly.inScope kit id named children span').run a = (.ok (), b')) ∧
    ∀ b b', (Assembly.createWith kit id named children span).run a = (.ok (), b) →
      (Assembly.inScope kit id named children span').run a = (.ok (), b') →
      (∃ e e', Assembly.Receives e a b ∧ Assembly.Receives e' a b' ∧ e.unmarked = e'.unmarked) ∧
      Assembly.Alike b b' := by
  have opened : Assembly.Makes _ (Assembly.inScope kit id named children span') a :=
    Assembly.inScope_makes lenient known slots span' a
  rw [← toAccount_children own distinct slots] at opened
  exact (Assembly.create_makes kit id _ span a).agree opened

end Forms

/-- Arguments for beats, as part of a measure. -/
def Beats.three : ChildArguments :=
  ⟨"Beats", ⟨1⟩, ⟨[.str "3"], []⟩, .nowhere⟩

/-- A measure that gets its beats as a bundle is the one that they are made inside. -/
theorem create_eq_inScope_measure :
    ∃ b b',
      (Assembly.createWith Beats.kit ⟨0⟩ [("number", .str "1")] [Beats.three] .nowhere).run
        (.start Beats.registry) = (.ok (), b) ∧
      (Assembly.inScope Beats.kit ⟨0⟩ [("number", .str "1")] [Beats.three] .nowhere).run
        (.start Beats.registry) = (.ok (), b') ∧
      Assembly.Alike b b' := by
  have known : Beats.kit.catalogue.get? ⟨0⟩ = some Beats.catalogue.types[0] := rfl
  have own : ∀ entry ∈ [("number", Value.str "1")], ∀ slot,
      Beats.catalogue.types[0].field? entry.1 ≠ some (.child slot) := by
    intro entry member slot
    obtain rfl := List.mem_singleton.1 member
    nofun
  have slots : ∀ child ∈ [Beats.three],
      Beats.catalogue.types[0].field? child.field = some (.child child.slot) := by
    intro child member
    obtain rfl := List.mem_singleton.1 member
    rfl
  have distinct : ([Beats.three].map (·.field)).Nodup := List.pairwise_singleton _ _
  obtain ⟨-, agree⟩ := create_eq_inScope rfl known own distinct slots .nowhere .nowhere
    (.start Beats.registry)
  exact ⟨_, _, rfl, rfl, (agree _ _ rfl rfl).2⟩

end ScoreScript
