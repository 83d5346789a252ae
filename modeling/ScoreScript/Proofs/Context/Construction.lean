import ScoreScript.Proofs.Building.Call
import ScoreScript.Proofs.Catalogue.Closed

/-!
A builder that keeps all that is open on one stack: scopes, and on top of them the constructions
that are at work. A construction puts a frame on the stack, gives the arguments to the element on
top, and takes the frame off again whether or not they could be given. While it is at work, its
frame holds what a draft would hold, and nothing below that frame is touched, however deep the
construction goes (`Carries`), so that all there is left of it in the end is its element and the
log. Main statements: `constructing_eq`, `make_eq`.
-/

namespace ScoreScript

/-- What a frame is open for: one construction, or the scope with a number until it is closed. -/
inductive FrameKind where
  | construction
  | scope (number : Nat)
  deriving DecidableEq, Repr

namespace FrameKind

def isScope : FrameKind → Bool
  | construction => false
  | scope _ => true

end FrameKind

/-- An open element, with the texts of the violations that were reported for it. -/
structure StackFrame where
  id : TypeId
  element : Element
  kind : FrameKind
  span : Span
  reported : List String

/-- A document that is being put together; the top of the stack comes first. -/
structure Builder where
  stack : List StackFrame
  root : Option Element
  nextScope : Nat
  log : Log

/-- Work of a builder. A failure keeps what was done before it. -/
abbrev Building := ExceptT Error (StateM Builder)

namespace Builder

def start (registry : Registry) : Builder :=
  ⟨[], none, 0, ⟨registry, []⟩⟩

/-! ### The stack -/

def push (frame : StackFrame) : Building Unit :=
  modify fun b => { b with stack := frame :: b.stack }

/-- Take the top frame off, if there is one. -/
def pop : Building (Option StackFrame) := do
  let b ← get
  set { b with stack := b.stack.tail }
  return b.stack.head?

/-- Change the element on top. -/
def onTop (change : Element → Element) : Building Unit :=
  modify fun b =>
    match b.stack with
    | [] => b
    | top :: below => { b with stack := { top with element := change top.element } :: below }

/-- What work comes to, also when it fails. -/
def attempt {α : Type} (work : Building α) : Building (Except Error α) := fun b =>
  let (result, b) := work.run b
  (.ok result, b)

/-- Work on the log alone. -/
def onLog {α : Type} (work : Making α) : Building α := fun b =>
  let (result, log) := work.run b.log
  (result, { b with log })

/-- Add an element to the one on top and check that tolerantly, or make it the root. -/
def attach (c : Catalogue) (element : Element) (span : Span) : Building Unit := do
  let b ← get
  match b.stack with
  | [] => set { b with root := some element }
  | top :: below =>
    let parent ← c.element top.id
    let grown := (top.element.addChild element).sortChildren parent.order
    let (element, reported) ← onLog (checkElement .tolerant span top.reported grown)
    modify fun b => { b with stack := { top with element, reported } :: below }

/-! ### Constructions -/

/-- There are not too many arguments, and none for a field that has one. -/
def fit (type : ElementType) (span : Span) (given : Nat) (names : List String) :
    Except Error Unit := do
  if type.fields.length < given then
    throw ⟨.usage (.tooManyArguments type.name type.fields.length given), span⟩
  match firstRepeated? (Assoc.keys (type.fields.take given)) names with
  | some name => throw ⟨.usage (.duplicateArgument type.name name), span⟩
  | none => return ()

/-- Make an element of a type by giving it its arguments on the stack. -/
def constructing (c : Catalogue) (span : Span) (id : TypeId)
    (apply : ElementType → Building Unit) : Building Element := do
  let type ← c.element id
  push ⟨id, .empty type.tag, .construction, span, []⟩
  let applied ← attempt (apply type)
  let frame ← pop
  applied
  match frame with
  | some frame => return frame.element
  | none => throw ⟨.usage (.scopeMismatch type.name), span⟩

/-- Give a value to a field of the element on top. `make` makes the child that it stands for. -/
def applyField (c : Catalogue) (span : Span) (type : ElementType) (name : String) (v : Value)
    (make : TypeId → Building Element) : Building Unit :=
  if v.isNone then return ()
  else
    match type.field? name with
    | none => throw ⟨.usage (.unknownField type.name name), span⟩
    | some .text => onTop (·.setText v.display)
    | some (.attr name _) => onTop (·.setAttribute name v.display)
    | some (.child slot) =>
      match v with
      | .element _ => throw ⟨.usage (.prebuiltChild type.name name), span⟩
      | _ => do
        let child ← make slot
        attach c child span

/-- Make an element from one value that is no collection of arguments. If its first field holds a
child, the value goes on to that, through at most `room` types. -/
def plain (c : Catalogue) (span : Span) (v : Value) : (room : Nat) → TypeId → Building Element
  | 0, _ => throw (.bare (.schema (.endlessField v.literal)))
  | room + 1, id => constructing c span id fun type => do
    fit type span 1 []
    (type.positional? 0).elim (return ()) fun first =>
      applyField c span type first.1 v (plain c span v room)

mutual

/-- Make the element of a type that a value stands for. -/
def make (c : Catalogue) (span : Span) (id : TypeId) : Value → Building Element
  | .bundle ⟨positional, named⟩ => constructing c span id fun type => do
    fit type span positional.length (Assoc.keys named)
    applyInTurn c span type positional type.fields
    applyNamed c span type named
  | .tuple items => constructing c span id fun type => do
    fit type span items.length []
    applyInTurn c span type items type.fields
  | .map entries => constructing c span id fun type => do
    fit type span 0 (Assoc.keys entries)
    applyNamed c span type entries
  | v => plain c span v (c.size + 1) id

/-- Give values to fields in turn. -/
def applyInTurn (c : Catalogue) (span : Span) (type : ElementType) :
    List Value → (fields : List (String × Field)) → Building Unit
  | v :: rest, (name, _) :: fields => do
    applyField c span type name v fun slot => make c span slot v
    applyInTurn c span type rest fields
  | _, _ => return ()

/-- Give values to fields by name. -/
def applyNamed (c : Catalogue) (span : Span) (type : ElementType) :
    List (String × Value) → Building Unit
  | (name, v) :: rest => do
    applyField c span type name v fun slot => make c span slot v
    applyNamed c span type rest
  | [] => return ()

end

/-! ### Calls -/

/-- Make an element where we are. -/
def create (kit : Kit) (id : TypeId) (args : Arguments) (span : Span) : Building Unit := do
  let element ← make kit.catalogue span id (.bundle args)
  attach kit.catalogue element span

/-- Make an element and leave it open. -/
def openScope (kit : Kit) (id : TypeId) (args : Arguments) (span : Span) :
    Building ScopeToken := do
  let element ← make kit.catalogue span id (.bundle args)
  let b ← get
  set { b with nextScope := b.nextScope + 1 }
  push ⟨id, element, .scope b.nextScope, span, []⟩
  return ⟨b.nextScope, id⟩

/-- The scope of a token is the innermost one. -/
def IsInnermost (b : Builder) (token : ScopeToken) : Prop :=
  ∃ top ∈ b.stack.head?, top.kind = .scope token.scope

instance (b : Builder) (token : ScopeToken) : Decidable (b.IsInnermost token) :=
  inferInstanceAs (Decidable (∃ top ∈ b.stack.head?, top.kind = .scope token.scope))

/-- Close the innermost scope, which must be the one of this token. -/
def close (kit : Kit) (token : ScopeToken) : Building Unit := do
  if (← get).IsInnermost token then
    match ← pop with
    | none => throw (.bare (.usage (.scopeMismatch (Assembly.typeName kit token.id))))
    | some frame =>
      let (element, _) ← onLog (checkElement .strict frame.span frame.reported frame.element)
      let outermost := (← get).stack.isEmpty
      attach kit.catalogue element frame.span
      if outermost then
        Assembly.escalate kit element.tag (← get).log
  else throw (.bare (.usage (.scopeMismatch (Assembly.typeName kit token.id))))

/-- The document, once every scope is closed. -/
def finish (kit : Kit) : Building (Document × List Diagnostic) := do
  let b ← get
  match b.stack.find? (·.kind.isScope), b.root with
  | some frame, _ =>
    throw ⟨.usage (.unclosedScope (Assembly.typeName kit frame.id)), frame.span⟩
  | none, none => throw (.bare (.usage .emptyDocument))
  | none, some root =>
    let root ← onLog (Assembly.settleRoot root)
    let log := (← get).log
    Assembly.escalate kit root.tag log
    return (⟨kit.catalogue.header root.tag, root⟩, log.diagnostics)

end Builder

/-- A call as work of a builder. Opening a scope issues its token. -/
def Call.work (kit : Kit) : Call → Building (Option ScopeToken)
  | .create id args span => do
    Builder.create kit id args span
    return none
  | .openScope id args span => return some (← Builder.openScope kit id args span)
  | .close token => do
    Builder.close kit token
    return none

namespace Builder

/-- What a call leaves, whether or not it failed. -/
def call (kit : Kit) (b : Builder) (call : Call) : Builder :=
  ((call.work kit).run b).2

/-- What calls leave one after the other. -/
def runAll (b : Builder) (kit : Kit) (calls : List Call) : Builder :=
  calls.foldl (Builder.call kit) b

/-- The token that a call issues. -/
def issuedBy : Except Error (Option ScopeToken) → Option ScopeToken
  | .ok token => token
  | .error _ => none

/-- The tokens that calls issue, in their order. -/
def issued (kit : Kit) (b : Builder) : List Call → List ScopeToken
  | [] => []
  | first :: rest =>
    (issuedBy ((first.work kit).run b).1).toList ++ issued kit (b.call kit first) rest

end Builder

/-! ### What a construction leaves -/

namespace Builder

/-- The builder with one more frame on the stack. -/
def on (b : Builder) (f : StackFrame) : Builder :=
  { b with stack := f :: b.stack }

end Builder

/-- A frame whose element is as far as a draft. -/
def StackFrame.holding (f : StackFrame) (d : Draft) : StackFrame :=
  { f with element := d.element, reported := d.reported }

namespace Builder

variable {c : Catalogue} {type : ElementType} {span : Span}

theorem run_liftOk {σ α β : Type} (a : α) (next : α → ExceptT Error (StateM σ) β) (s : σ) :
    (liftM (Except.ok a : Except Error α) >>= next).run s = (next a).run s :=
  rfl

theorem run_onLog {α : Type} (work : Making α) (b : Builder) :
    (onLog work).run b = ((work.run b.log).1, { b with log := (work.run b.log).2 }) :=
  rfl

/-- What is attached goes to the element on top, as it goes to a draft. -/
theorem run_attach_on {b : Builder} {f : StackFrame} {d : Draft}
    (found : c.get? f.id = some d.type) (e : Element) (span : Span) :
    (attach c e span).run (b.on (f.holding d)) =
      (.ok (), { b with log := (d.attach span e b.log).2 }.on
        (f.holding (d.attach span e b.log).1)) := by
  have parent : c.element f.id = .ok d.type := by rw [Catalogue.element, found]
  unfold attach
  rw [run_bind_ok (run_get _)]
  simp only [on, StackFrame.holding, parent]
  rfl

/-- Work on the top frame does what a step does to a draft, and nothing to the frames below. -/
def Carries (c : Catalogue) (type : ElementType) (work : Building Unit)
    (step : Draft → Making Draft) : Prop :=
  ∀ (b : Builder) (f : StackFrame) (d : Draft), c.get? f.id = some type → d.type = type →
    match (step d).run b.log with
    | (.ok d', log) => d'.type = type ∧
      work.run (b.on (f.holding d)) = (.ok (), { b with log }.on (f.holding d'))
    | (.error e, log) => ∃ g, work.run (b.on (f.holding d)) = (.error e, { b with log }.on g)

namespace Carries

theorem nothing : Carries c type (pure ()) pure :=
  fun _ _ _ _ typed => ⟨typed, rfl⟩

theorem fail (e : Error) : Carries c type (throw e) fun _ => throw e :=
  fun _ f d _ _ => ⟨f.holding d, rfl⟩

theorem change (f : Element → Element) :
    Carries c type (onTop f) fun d => pure { d with element := f d.element } :=
  fun _ _ _ _ typed => ⟨typed, rfl⟩

theorem andThen {work work' : Building Unit} {step step' : Draft → Making Draft}
    (first : Carries c type work step) (rest : Carries c type work' step') :
    Carries c type (work >>= fun _ => work') fun d => step d >>= step' := by
  intro b f d found typed
  have outcome := first b f d found typed
  rw [run_bind]
  cases done : (step d).run b.log with
  | mk result log =>
    rw [done] at outcome
    cases result with
    | error e =>
      obtain ⟨g, run⟩ := outcome
      exact ⟨g, run_bind_error run _⟩
    | ok d' =>
      obtain ⟨typed', run⟩ := outcome
      rw [run_bind_ok run]
      exact rest { b with log } f d' found typed'

theorem fits (span : Span) (given : Nat) (names : List String) :
    Carries c type (liftM (fit type span given names))
      fun d => liftM (fit type span given names) >>= fun _ => pure d := by
  cases fit type span given names with
  | ok _ => exact nothing
  | error e => exact fail e

/-- A child that is made on the log alone goes to the element on top. -/
theorem child (made : Making Element) :
    Carries c type (onLog made >>= fun e => attach c e span)
      fun d => made >>= fun e => liftM (d.attach span e) := by
  intro b f d found typed
  rw [run_bind]
  cases done : made.run b.log with
  | mk result log =>
    have run : (onLog made).run (b.on (f.holding d)) =
        (result, { b with log }.on (f.holding d)) := by
      change ((made.run b.log).1, { b.on (f.holding d) with log := (made.run b.log).2 }) = _
      rw [done]
      rfl
    cases result with
    | error e => exact ⟨f.holding d, run_bind_error run _⟩
    | ok e =>
      refine ⟨typed, ?_⟩
      rw [run_bind_ok run]
      exact run_attach_on (typed ▸ found) e span

/-- Giving a value to a field, if the child it stands for is made on the log alone. -/
theorem field {name : String} {v : Value} {make : TypeId → Building Element}
    {draw : TypeId → Making Element}
    (made : v.isNone = false → (∀ tag, v ≠ .element tag) →
      ∀ slot, make slot = onLog (draw slot)) :
    Carries c type (applyField c span type name v make) (Draft.give span name v draw) := by
  intro b f d found typed
  subst typed
  unfold applyField Draft.give
  cases given : v.isNone with
  | true => exact nothing b f d found rfl
  | false =>
    simp only [Bool.false_eq_true, if_false]
    cases d.type.field? name with
    | none => exact fail _ b f d found rfl
    | some field =>
      cases field with
      | text => exact change _ b f d found rfl
      | attr name ns => exact change _ b f d found rfl
      | child slot =>
        cases v with
        | element tag => exact fail _ b f d found rfl
        | _ =>
          simp only [made given (by simp) slot]
          exact child (draw slot) b f d found rfl

end Carries

theorem run_attempt {α : Type} {work : Building α} {b b' : Builder} {result : Except Error α}
    (done : work.run b = (result, b')) : (attempt work).run b = (.ok result, b') := by
  change (Except.ok (work.run b).1, (work.run b).2) = _
  rw [done]

/-- A construction takes its frame off again, so all that remains of it is the log. -/
theorem constructing_eq {id : TypeId} {apply : ElementType → Building Unit}
    {step : ElementType → Draft → Making Draft}
    (carries : ∀ type, c.get? id = some type → Carries c type (apply type) (step type)) :
    constructing c span id apply = onLog do
      let type ← c.element id
      let d ← step type ⟨type, .empty type.tag, []⟩
      return d.element := by
  funext b
  change (constructing c span id apply).run b = (onLog _).run b
  unfold constructing
  cases element : c.element id with
  | error e => rfl
  | ok type =>
    have found := Catalogue.get?_of_element element
    let frame : StackFrame := ⟨id, .empty type.tag, .construction, span, []⟩
    have outcome := carries type found b frame ⟨type, .empty type.tag, []⟩ found rfl
    have pushed : (push frame).run b =
        (.ok (), b.on (frame.holding ⟨type, .empty type.tag, []⟩)) := rfl
    rw [run_onLog, run_liftOk, run_liftOk, run_bind_ok pushed]
    cases done : (step type ⟨type, .empty type.tag, []⟩).run b.log with
    | mk result log =>
      rw [done] at outcome
      cases result with
      | ok d' =>
        rw [run_bind_ok (run_attempt outcome.2), run_bind_ok done]
        rfl
      | error e =>
        obtain ⟨g, run⟩ := outcome
        rw [run_bind_ok (run_attempt run), run_bind_error done]
        rfl

theorem start_eq (id : TypeId) (given : Nat) (names : List String) :
    Draft.start c span id given names = (do
      let type ← c.element id
      fit type span given names
      return ⟨type, .empty type.tag, []⟩) := by
  unfold Draft.start fit
  cases c.element id with
  | error e => rfl
  | ok type =>
    simp only [Bind.bind, Except.bind]
    split
    · rfl
    · cases firstRepeated? (Assoc.keys (type.fields.take given)) names <;> rfl

/-- A draft that is started is empty, if the arguments fit. -/
theorem start_bind {α : Type} (id : TypeId) (given : Nat) (names : List String)
    (next : Draft → Making α) :
    (liftM (Draft.start c span id given names) >>= next) = (do
      let type ← c.element id
      fit type span given names
      next ⟨type, .empty type.tag, []⟩) := by
  rw [start_eq]
  cases c.element id with
  | error e => rfl
  | ok type =>
    change (liftM (fit type span given names >>= fun _ => pure _) >>= next) =
      (liftM (fit type span given names) >>= fun _ => next ⟨type, .empty type.tag, []⟩)
    cases fit type span given names <;> rfl

theorem plain_eq {v : Value} (given : v.isNone = false) (other : ∀ tag, v ≠ .element tag)
    (room : Nat) (id : TypeId) :
    plain c span v room id = onLog (plainElement c span v room id) := by
  induction room generalizing id with
  | zero => rfl
  | succ room ih =>
    have carries (type : ElementType) : Carries c type
        ((type.positional? 0).elim (return ()) fun first =>
          applyField c span type first.1 v (plain c span v room))
        ((type.positional? 0).elim pure fun first =>
          Draft.give span first.1 v (plainElement c span v room)) := by
      cases type.positional? 0 with
      | none => exact .nothing
      | some first => exact .field fun _ _ => ih
    rw [plain, plainElement, start_bind]
    refine (constructing_eq fun type _ => (Carries.fits span 1 []).andThen (carries type)).trans ?_
    simp only [bind_assoc, pure_bind]
    refine congrArg onLog (bind_congr fun type => bind_congr fun _ => ?_)
    cases fields : type.fields with
    | nil =>
      rw [ElementType.positional?, fields]
      rfl
    | cons first rest =>
      obtain ⟨name, field⟩ := first
      have first : type.positional? 0 = some (name, field) := by
        rw [ElementType.positional?, fields, List.getElem?_cons_zero]
      have found : type.field? name = some field := by
        rw [ElementType.field?, fields, Assoc.get?, List.lookup_cons_self]
      simp only [first, Option.elim_some, Draft.give, given, found, Bool.false_eq_true, if_false]
      cases field with
      | text => rfl
      | attr => rfl
      | child slot =>
        cases v with
        | element tag => exact absurd rfl (other tag)
        | _ => simp only [bind_assoc]

mutual

/-- An element is made on the stack as it is made on drafts. -/
theorem make_eq : (v : Value) → v.isNone = false → (∀ tag, v ≠ .element tag) → ∀ id,
    make c span id v = onLog (v.toElement c span id)
  | .bundle ⟨positional, named⟩, _, _, id => by
    rw [make, Value.toElement, start_bind, constructing_eq fun type _ =>
      (Carries.fits span positional.length (Assoc.keys named)).andThen
        ((applyInTurn_carries positional type type.fields).andThen (applyNamed_carries named type))]
    simp only [bind_assoc, pure_bind]
  | .tuple items, _, _, id => by
    rw [make, Value.toElement, start_bind, constructing_eq fun type _ =>
      (Carries.fits span items.length []).andThen (applyInTurn_carries items type type.fields)]
    simp only [bind_assoc, pure_bind]
  | .map entries, _, _, id => by
    rw [make, Value.toElement, start_bind, constructing_eq fun type _ =>
      (Carries.fits span 0 (Assoc.keys entries)).andThen (applyNamed_carries entries type)]
    simp only [bind_assoc, pure_bind]
  | .bool _, given, other, _ => plain_eq given other _ _
  | .int _, given, other, _ => plain_eq given other _ _
  | .float _, given, other, _ => plain_eq given other _ _
  | .str _, given, other, _ => plain_eq given other _ _
  | .bytes _, given, other, _ => plain_eq given other _ _
  | .type _, given, other, _ => plain_eq given other _ _
  | .helper, given, other, _ => plain_eq given other _ _
  | .none, given, _, _ => nomatch given
  | .element tag, _, other, _ => absurd rfl (other tag)

theorem applyInTurn_carries : (items : List Value) → (type : ElementType) →
    (fields : List (String × Field)) →
    Carries c type (applyInTurn c span type items fields)
      fun d => giveInTurn c span items fields d
  | v :: rest, type, (name, _) :: fields => by
    simp only [applyInTurn, giveInTurn]
    exact .andThen (.field (make_eq v)) (applyInTurn_carries rest type fields)
  | [], _, _ => .nothing
  | _ :: _, _, [] => .nothing

theorem applyNamed_carries : (items : List (String × Value)) → (type : ElementType) →
    Carries c type (applyNamed c span type items) fun d => giveNamed c span items d
  | (name, v) :: rest, type => by
    simp only [applyNamed, giveNamed]
    exact .andThen (.field (make_eq v)) (applyNamed_carries rest type)
  | [], _ => .nothing

end

/-- A construction leaves the stack, the root and the numbers of scopes, whether or not it fails. -/
theorem run_make {span : Span} {id : TypeId} {args : Arguments} {b : Builder}
    {result : Except Error Element} {log : Log}
    (done : (construct c span id args).run b.log = (result, log)) :
    (make c span id (.bundle args)).run b = (result, { b with log }) := by
  rw [make_eq (.bundle args) rfl nofun id, run_onLog]
  change (((construct c span id args).run b.log).1,
    { b with log := ((construct c span id args).run b.log).2 }) = _
  rw [done]

/-- Only a type of the catalogue makes elements. -/
theorem type_of_construct {span : Span} {id : TypeId} {args : Arguments} {log log' : Log}
    {e : Element} (done : (construct c span id args).run log = (.ok e, log')) :
    ∃ type, c.element id = .ok type := by
  obtain ⟨positional, named⟩ := args
  rw [construct, Value.toElement, start_bind] at done
  cases element : c.element id with
  | ok type => exact ⟨type, rfl⟩
  | error e' =>
    rw [element] at done
    cases done

end Builder

end ScoreScript
