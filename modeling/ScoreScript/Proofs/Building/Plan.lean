import ScoreScript.Proofs.Building.Bench
import ScoreScript.Proofs.Stateful

/-!
The actions of a construction. They depend on the catalogue and the arguments only, so they can
be planned ahead, as far as the construction gets. Main statement, `construct_made`: to perform
the plan on a bench is to run the construction on its log.
-/

namespace ScoreScript

/-- Actions in turn, and the failure that ends them if there is one. -/
structure Plan where
  actions : List Action := []
  failure : Option Error := none

namespace Plan

def fail (e : Error) : Plan :=
  ⟨[], some e⟩

def act (action : Action) : Plan :=
  ⟨[action], none⟩

/-- One plan and then another, unless the first fails. -/
def andThen (first second : Plan) : Plan :=
  match first.failure with
  | some _ => first
  | none => ⟨first.actions ++ second.actions, second.failure⟩

/-- Begin an element of a type and go on as `rest` says. -/
def begin (c : Catalogue) (span : Span) (id : TypeId) (given : Nat) (names : List String)
    (rest : ElementType → Plan) : Plan :=
  match Draft.start c span id given names with
  | .error e => fail e
  | .ok d => (act (.begin id span)).andThen (rest d.type)

/-- Give a value to a field; `make` plans the child that the value stands for. -/
def give (span : Span) (type : ElementType) (name : String) (v : Value) (make : TypeId → Plan) :
    Plan :=
  if v.isNone then {}
  else
    match type.field? name with
    | none => fail ⟨.usage (.unknownField type.name name), span⟩
    | some .text => act (.setText v.display)
    | some (.attr name _) => act (.setAttribute name v.display)
    | some (.child slot) =>
      match v with
      | .element _ => fail ⟨.usage (.prebuiltChild type.name name), span⟩
      | _ => (make slot).andThen (act (.attach span))

end Plan

def plainPlan (c : Catalogue) (span : Span) (v : Value) : (room : Nat) → TypeId → Plan
  | 0, _ => .fail (.bare (.schema (.endlessField v.literal)))
  | room + 1, id =>
    .begin c span id 1 [] fun type =>
      match type.fields with
      | [] => {}
      | (_, .text) :: _ => .act (.setText v.display)
      | (_, .attr name _) :: _ => .act (.setAttribute name v.display)
      | (_, .child slot) :: _ => (plainPlan c span v room slot).andThen (.act (.attach span))

mutual

/-- The plan of the element of type `id` that a value stands for. -/
def Value.plan (c : Catalogue) (span : Span) (id : TypeId) : Value → Plan
  | .bundle ⟨positional, named⟩ =>
    .begin c span id positional.length (Assoc.keys named) fun type =>
      (planInTurn c span type positional type.fields).andThen (planNamed c span type named)
  | .tuple items =>
    .begin c span id items.length [] fun type => planInTurn c span type items type.fields
  | .map entries =>
    .begin c span id 0 (Assoc.keys entries) fun type => planNamed c span type entries
  | v => plainPlan c span v (c.size + 1) id

def planInTurn (c : Catalogue) (span : Span) (type : ElementType) :
    List Value → (fields : List (String × Field)) → Plan
  | v :: rest, (name, _) :: fields =>
    (Plan.give span type name v fun slot => v.plan c span slot).andThen
      (planInTurn c span type rest fields)
  | _, _ => {}

def planNamed (c : Catalogue) (span : Span) (type : ElementType) :
    List (String × Value) → Plan
  | (name, v) :: rest =>
    (Plan.give span type name v fun slot => v.plan c span slot).andThen
      (planNamed c span type rest)
  | [] => {}

end

/-! ### Plans and what they plan -/

/-- Constructions leave the root and the scopes alone. -/
structure Bench.Keeps (b b' : Bench) : Prop where
  root : b'.root = b.root
  nextScope : b'.nextScope = b.nextScope

theorem Bench.Keeps.refl (b : Bench) : b.Keeps b :=
  ⟨rfl, rfl⟩

theorem Bench.Keeps.trans {a b d : Bench} (first : a.Keeps b) (second : b.Keeps d) : a.Keeps d :=
  ⟨second.root.trans first.root, second.nextScope.trans first.nextScope⟩

/-- Pieces under construction lie on top of others. -/
def Work.PiledOn (below works : List Work) : Prop :=
  ∃ top, works = top ++ below ∧ ∀ w ∈ top, w.own = true

theorem Work.PiledOn.cons {w : Work} {below works : List Work} (own : w.own = true)
    (piled : PiledOn (w :: below) works) : PiledOn below works := by
  obtain ⟨top, rfl, tops⟩ := piled
  refine ⟨top ++ [w], by rw [List.append_assoc]; rfl, ?_⟩
  intro w' member
  rcases List.mem_append.1 member with inside | last
  · exact tops w' inside
  · rw [List.mem_singleton.1 last]
    exact own

namespace Plan

variable (c : Catalogue)

/-- To perform a plan is to do work on the draft under construction. -/
def Builds (type : ElementType) (plan : Plan) (work : Draft → Making Draft) : Prop :=
  ∀ (b : Bench) (w : Work) (below : List Work),
    b.works = w :: below → w.own = true → w.type = type →
      b.Keeps (b.performAll c plan.actions) ∧
      match plan.failure with
      | none => ∃ piece reported,
          (b.performAll c plan.actions).works = { w with piece, reported } :: below ∧
          (work w.draft).run b.log =
            (.ok { w with piece, reported }.draft, (b.performAll c plan.actions).log)
      | some e =>
          Work.PiledOn below (b.performAll c plan.actions).works ∧
          (work w.draft).run b.log = (.error e, (b.performAll c plan.actions).log)

/-- To perform a plan is to make an element, which is left under construction. -/
def Makes (id : TypeId) (span : Span) (plan : Plan) (work : Making Element) : Prop :=
  ∀ b : Bench,
    b.Keeps (b.performAll c plan.actions) ∧
    match plan.failure with
    | none => ∃ w : Work,
        (b.performAll c plan.actions).works = w :: b.works ∧ w.own = true ∧ w.id = id ∧
        w.span = span ∧ c.get? id = some w.type ∧
        work.run b.log = (.ok w.piece.element, (b.performAll c plan.actions).log)
    | some e =>
        Work.PiledOn b.works (b.performAll c plan.actions).works ∧
        work.run b.log = (.error e, (b.performAll c plan.actions).log)

variable {c} {type : ElementType} {span : Span}

theorem Builds.nothing : Builds c type {} fun d => return d := by
  intro b w below works own typed
  exact ⟨.refl b, w.piece, w.reported, works, rfl⟩

theorem Builds.fail (e : Error) : Builds c type (.fail e) fun _ => throw e := by
  intro b w below works own typed
  refine ⟨.refl b, ⟨[w], works, ?_⟩, rfl⟩
  intro w' member
  rw [List.mem_singleton.1 member]
  exact own

theorem Builds.congr {plan : Plan} {work : Draft → Making Draft} (builds : Builds c type plan work)
    (work' : Draft → Making Draft) (same : ∀ d : Draft, d.type = type → work' d = work d) :
    Builds c type plan work' := by
  intro b w below works own typed
  rw [same w.draft typed]
  exact builds b w below works own typed

theorem Builds.andThen {first second : Plan} {work next : Draft → Making Draft}
    (builds : Builds c type first work) (goesOn : Builds c type second next) :
    Builds c type (first.andThen second) fun d => work d >>= next := by
  intro b w below works own typed
  obtain ⟨kept, outcome⟩ := builds b w below works own typed
  unfold Plan.andThen
  cases failed : first.failure with
  | some e =>
    rw [failed] at outcome
    obtain ⟨piled, run⟩ := outcome
    simp only [failed]
    exact ⟨kept, piled, run_bind_error run next⟩
  | none =>
    rw [failed] at outcome
    obtain ⟨piece, reported, works', run⟩ := outcome
    obtain ⟨kept', outcome'⟩ := goesOn _ _ below works' own typed
    simp only [Bench.performAll_append]
    refine ⟨kept.trans kept', ?_⟩
    cases failed' : second.failure with
    | some e =>
      rw [failed'] at outcome'
      exact ⟨outcome'.1, (run_bind_ok run next).trans outcome'.2⟩
    | none =>
      rw [failed'] at outcome'
      obtain ⟨piece', reported', works'', run'⟩ := outcome'
      exact ⟨piece', reported', works'', (run_bind_ok run next).trans run'⟩

end Plan

namespace Plan

variable {c : Catalogue} {type : ElementType} {span : Span}

theorem Builds.setText (text : String) :
    Builds c type (.act (.setText text)) fun d => return d.setText text := by
  intro b w below works own typed
  have done : b.performAll c (act (.setText text)).actions = b.shape (·.setText text) := rfl
  rw [done, Bench.shape_of_own works own]
  refine ⟨⟨rfl, rfl⟩, w.piece.setText text, w.reported, rfl, ?_⟩
  simp only [Work.draft, Piece.element_setText]
  rfl

theorem Builds.setAttribute (name value : String) :
    Builds c type (.act (.setAttribute name value)) fun d => return d.setAttribute name value := by
  intro b w below works own typed
  have done : b.performAll c (act (.setAttribute name value)).actions =
      b.shape (·.setAttribute name value) := rfl
  rw [done, Bench.shape_of_own works own]
  refine ⟨⟨rfl, rfl⟩, w.piece.setAttribute name value, w.reported, rfl, ?_⟩
  simp only [Work.draft, Piece.element_setAttribute]
  rfl

/-- A child that is made goes to the draft that was under construction before it. -/
theorem Builds.attach {id : TypeId} {plan : Plan} {make : Making Element}
    (makes : Makes c id span plan make) :
    Builds c type (plan.andThen (.act (.attach span)))
      fun d => make >>= fun child => d.attach span child := by
  intro b w below works own typed
  obtain ⟨kept, outcome⟩ := makes b
  unfold Plan.andThen
  cases failed : plan.failure with
  | some e =>
    rw [failed] at outcome
    obtain ⟨piled, run⟩ := outcome
    simp only [failed]
    rw [works] at piled
    exact ⟨kept, piled.cons own, run_bind_error run _⟩
  | none =>
    rw [failed] at outcome
    obtain ⟨child, works', childOwn, -, -, -, run⟩ := outcome
    simp only [Bench.performAll_append]
    rw [works] at works'
    generalize b.performAll c plan.actions = b' at *
    have done : b'.performAll c (act (.attach span)).actions =
        (b'.released child (w :: below)).place span child.piece := by
      change b'.perform c (.attach span) = _
      simp only [Bench.perform, works']
      rw [if_pos childOwn]
    have works'' : (b'.released child (w :: below)).works = w :: below := rfl
    rw [done, Bench.place_on works'']
    refine ⟨⟨?_, ?_⟩, _, _, rfl, ?_⟩
    · exact (Bench.check_root ..).trans kept.root
    · exact (Bench.check_nextScope ..).trans kept.nextScope
    · rw [run_bind_ok run]
      have attached := Bench.attach_draft (b'.released child (w :: below)) span w child.piece
      change (fun result : Draft × Log => (Except.ok result.1, result.2))
        (w.draft.attach span child.piece.element b'.log) = _
      rw [show b'.log = (b'.released child (w :: below)).log from rfl, attached]
      rfl

/-- Giving a value to a field goes as planned if making the child does. -/
theorem Builds.give (name : String) (v : Value) {makePlan : TypeId → Plan}
    {make : TypeId → Making Element}
    (makes : ∀ slot, Makes c slot span (makePlan slot) (make slot)) :
    Builds c type (.give span type name v makePlan) fun d => d.give span name v make := by
  intro b w below works own typed
  subst typed
  have built {plan : Plan} {work : Draft → Making Draft} (builds : Builds c w.type plan work)
      (same : w.draft.give span name v make = work w.draft) :
      b.Keeps (b.performAll c plan.actions) ∧
        match plan.failure with
        | none => ∃ piece reported,
            (b.performAll c plan.actions).works = { w with piece, reported } :: below ∧
            (w.draft.give span name v make).run b.log =
              (.ok { w with piece, reported }.draft, (b.performAll c plan.actions).log)
        | some e =>
            Work.PiledOn below (b.performAll c plan.actions).works ∧
            (w.draft.give span name v make).run b.log =
              (.error e, (b.performAll c plan.actions).log) := by
    rw [same]
    exact builds b w below works own rfl
  unfold Plan.give
  by_cases absent : v.isNone
  · rw [if_pos absent]
    apply built .nothing
    rw [Draft.give, if_pos absent]
  · rw [if_neg absent]
    cases field : w.type.field? name with
    | none =>
      apply built (.fail _)
      simp only [Draft.give, if_neg absent, Work.draft, field]
    | some f =>
      cases f with
      | text =>
        apply built (.setText v.display)
        simp only [Draft.give, if_neg absent, Work.draft, field]
      | attr name ns =>
        apply built (.setAttribute name v.display)
        simp only [Draft.give, if_neg absent, Work.draft, field]
      | child slot =>
        cases v with
        | element tag =>
          apply built (.fail _)
          simp only [Draft.give, if_neg absent, Work.draft, field]
        | _ =>
          apply built (.attach (makes slot))
          simp only [Draft.give, if_neg absent, Work.draft, field]

/-- A draft starts without content. -/
theorem start_eq_ok {id : TypeId} {given : Nat} {names : List String} {d : Draft}
    (started : Draft.start c span id given names = .ok d) :
    c.get? id = some d.type ∧ d = ⟨d.type, .empty d.type.tag, []⟩ := by
  unfold Draft.start Catalogue.element at started
  cases found : c.get? id with
  | none =>
    rw [found] at started
    cases started
  | some type =>
    rw [found] at started
    simp only [Bind.bind, Except.bind] at started
    split at started
    · cases started
    · split at started
      · cases started
      · cases started
        exact ⟨rfl, rfl⟩

/-- An element is made by beginning it and giving it what it gets. -/
theorem Makes.begin {id : TypeId} (given : Nat) (names : List String)
    {rest : ElementType → Plan} {work : Draft → Making Draft}
    (builds : ∀ type, Builds c type (rest type) work) :
    Makes c id span (.begin c span id given names rest)
      (liftM (Draft.start c span id given names) >>= fun d =>
        work d >>= fun d => return d.element) := by
  intro b
  unfold Plan.begin
  cases started : Draft.start c span id given names with
  | error e => exact ⟨.refl b, ⟨[], rfl, fun w member => nomatch member⟩, rfl⟩
  | ok d =>
    obtain ⟨found, fresh⟩ := start_eq_ok started
    have begun : b.performAll c (act (.begin id span)).actions = b.begun id d.type span := by
      change b.perform c (.begin id span) = _
      simp only [Bench.perform, found]
    obtain ⟨kept, outcome⟩ := builds d.type (b.performAll c (act (.begin id span)).actions)
      ⟨id, d.type, .empty b.nextSerial d.type.tag, [], none, span⟩ b.works (by rw [begun]; rfl)
      rfl rfl
    have draft : (⟨id, d.type, .empty b.nextSerial d.type.tag, [], none, span⟩ : Work).draft = d :=
      fresh.symm
    have same : (b.performAll c (act (.begin id span)).actions).log = b.log := by
      rw [begun]
      rfl
    rw [draft, same] at outcome
    have keptFirst : b.Keeps (b.performAll c (act (.begin id span)).actions) := by
      rw [begun]
      exact ⟨rfl, rfl⟩
    simp only [Plan.andThen, act, Bench.performAll_append] at outcome ⊢
    refine ⟨keptFirst.trans kept, ?_⟩
    cases failed : (rest d.type).failure with
    | some e =>
      rw [failed] at outcome
      exact ⟨outcome.1, run_bind_error outcome.2 _⟩
    | none =>
      rw [failed] at outcome
      obtain ⟨piece, reported, works, run⟩ := outcome
      exact ⟨_, works, rfl, rfl, rfl, found, run_bind_ok run _⟩

end Plan

/-- What a value that is no collection does to a draft, through its first field. -/
def giveFirst (c : Catalogue) (span : Span) (v : Value) (room : Nat) (d : Draft) : Making Draft :=
  match d.type.fields with
  | [] => return d
  | (_, .text) :: _ => return d.setText v.display
  | (_, .attr name _) :: _ => return d.setAttribute name v.display
  | (_, .child slot) :: _ => plainElement c span v room slot >>= fun child => d.attach span child

theorem plainElement_succ (c : Catalogue) (span : Span) (v : Value) (room : Nat) (id : TypeId) :
    plainElement c span v (room + 1) id =
      liftM (Draft.start c span id 1 []) >>= fun d =>
        giveFirst c span v room d >>= fun d => return d.element := by
  rw [plainElement]
  refine bind_congr fun d => ?_
  unfold giveFirst
  split <;> simp [*]

theorem plainElement_made (c : Catalogue) (span : Span) (v : Value) (room : Nat) (id : TypeId) :
    (plainPlan c span v room id).Makes c id span (plainElement c span v room id) := by
  induction room generalizing id with
  | zero => exact fun b => ⟨.refl b, ⟨[], rfl, fun w member => nomatch member⟩, rfl⟩
  | succ room ih =>
    rw [plainPlan, plainElement_succ]
    refine .begin 1 [] fun type => ?_
    cases fields : type.fields with
    | nil =>
      refine Plan.Builds.nothing.congr _ fun d typed => ?_
      rw [giveFirst, typed, fields]
    | cons first rest =>
      obtain ⟨name, field⟩ := first
      cases field with
      | text =>
        refine (Plan.Builds.setText v.display).congr _ fun d typed => ?_
        rw [giveFirst, typed, fields]
      | attr name ns =>
        refine (Plan.Builds.setAttribute name v.display).congr _ fun d typed => ?_
        rw [giveFirst, typed, fields]
      | child slot =>
        refine (Plan.Builds.attach (ih slot)).congr _ fun d typed => ?_
        rw [giveFirst, typed, fields]

mutual

theorem toElement_made (c : Catalogue) (span : Span) (id : TypeId) :
    (v : Value) → (v.plan c span id).Makes c id span (v.toElement c span id)
  | .bundle ⟨positional, named⟩ => by
    have made : (Value.plan c span id (.bundle ⟨positional, named⟩)).Makes c id span
        (liftM (Draft.start c span id positional.length (Assoc.keys named)) >>= fun d =>
          (giveInTurn c span positional d.type.fields d >>= giveNamed c span named) >>= fun d =>
            return d.element) := by
      unfold Value.plan
      refine .begin positional.length (Assoc.keys named) fun type => ?_
      refine ((giveInTurn_built c span type positional type.fields).andThen
        (giveNamed_built c span type named)).congr _ fun d typed => ?_
      rw [typed]
    unfold Value.toElement
    simp only [bind_assoc] at made
    exact made
  | .tuple items => by
    unfold Value.plan Value.toElement
    refine .begin items.length [] fun type => ?_
    refine (giveInTurn_built c span type items type.fields).congr _ fun d typed => ?_
    rw [typed]
  | .map entries => by
    unfold Value.plan Value.toElement
    exact .begin 0 (Assoc.keys entries) fun type => giveNamed_built c span type entries
  | .none | .bool _ | .int _ | .float _ | .str _ | .bytes _ | .element _ | .type _ | .helper => by
    unfold Value.plan Value.toElement
    exact plainElement_made c span _ _ id

theorem giveInTurn_built (c : Catalogue) (span : Span) (type : ElementType) :
    (values : List Value) → (fields : List (String × Field)) →
      (planInTurn c span type values fields).Builds c type (giveInTurn c span values fields)
  | v :: rest, (name, field) :: fields => by
    unfold planInTurn
    refine (Plan.Builds.andThen (.give name v fun slot => toElement_made c span slot v)
      (giveInTurn_built c span type rest fields)).congr _ fun d _ => ?_
    rw [giveInTurn]
  | [], _ => by
    unfold planInTurn
    refine Plan.Builds.nothing.congr _ fun d _ => ?_
    simp [giveInTurn]
  | _ :: _, [] => by
    unfold planInTurn
    refine Plan.Builds.nothing.congr _ fun d _ => ?_
    simp [giveInTurn]

theorem giveNamed_built (c : Catalogue) (span : Span) (type : ElementType) :
    (entries : List (String × Value)) →
      (planNamed c span type entries).Builds c type (giveNamed c span entries)
  | (name, v) :: rest => by
    unfold planNamed
    refine (Plan.Builds.andThen (.give name v fun slot => toElement_made c span slot v)
      (giveNamed_built c span type rest)).congr _ fun d _ => ?_
    rw [giveNamed]
  | [] => by
    unfold planNamed
    refine Plan.Builds.nothing.congr _ fun d _ => ?_
    rw [giveNamed]

end

/-- The plan of an element that a type makes from arguments. -/
def constructPlan (c : Catalogue) (span : Span) (id : TypeId) (args : Arguments) : Plan :=
  Value.plan c span id (.bundle args)

/-- To perform the plan of a construction is to run it. -/
theorem construct_made (c : Catalogue) (span : Span) (id : TypeId) (args : Arguments) :
    (constructPlan c span id args).Makes c id span (construct c span id args) :=
  toElement_made c span id (.bundle args)

end ScoreScript
