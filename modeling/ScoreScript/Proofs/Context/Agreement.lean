import ScoreScript.Proofs.Context.Construction

/-!
The builder with a stack does what the assembly does. Between calls the frames on the stack are the
open elements of the assembly, and whatever is called next comes to the same and leaves the same.
Main statements: `call_stacked`, `runAll_stacked`, `finish_stacked`.
-/

namespace ScoreScript

namespace Builder

/-! ### Calls -/

theorem run_then {α β : Type} (work : Building α) (x : β) (b : Builder) :
    (work >>= fun _ => pure x).run b = ((work.run b).1.map fun _ => x, (work.run b).2) := by
  rw [run_bind]
  cases work.run b with
  | mk result b' => cases result <;> rfl

section Construction

variable (kit : Kit) (id : TypeId) (args : Arguments) (span : Span) (b : Builder)

/-- Either the construction fails, and nothing but the log is different, or its element is attached
to what is there. -/
theorem create_cases :
    (∃ e log, (construct kit.catalogue span id args).run b.log = (.error e, log) ∧
      (create kit id args span).run b = (.error e, { b with log })) ∨
    ∃ child log, (construct kit.catalogue span id args).run b.log = (.ok child, log) ∧
      (create kit id args span).run b =
        (attach kit.catalogue child span).run { b with log } := by
  cases done : (construct kit.catalogue span id args).run b.log with
  | mk result log =>
    cases result with
    | error e => exact .inl ⟨e, log, rfl, run_bind_error (run_make done) _⟩
    | ok child => exact .inr ⟨child, log, rfl, run_bind_ok (run_make done) _⟩

/-- Either the construction fails, and nothing but the log is different, or its element is on top
under the next number. -/
theorem openScope_cases :
    (∃ e log, (construct kit.catalogue span id args).run b.log = (.error e, log) ∧
      (openScope kit id args span).run b = (.error e, { b with log })) ∨
    ∃ child log, (construct kit.catalogue span id args).run b.log = (.ok child, log) ∧
      (openScope kit id args span).run b =
        (.ok ⟨b.nextScope, id⟩,
          { b with
            stack := ⟨id, child, .scope b.nextScope, span, []⟩ :: b.stack
            nextScope := b.nextScope + 1
            log }) := by
  cases done : (construct kit.catalogue span id args).run b.log with
  | mk result log =>
    cases result with
    | error e => exact .inl ⟨e, log, rfl, run_bind_error (run_make done) _⟩
    | ok child => exact .inr ⟨child, log, rfl, run_bind_ok (run_make done) _⟩

end Construction

theorem isInnermost_iff {b : Builder} {token : ScopeToken} {top : StackFrame}
    {below : List StackFrame} (stack : b.stack = top :: below) :
    b.IsInnermost token ↔ top.kind = .scope token.scope := by
  rw [IsInnermost, stack]
  simp

theorem run_close_other (kit : Kit) {b : Builder} {token : ScopeToken}
    (other : ¬b.IsInnermost token) :
    (close kit token).run b =
      (.error (.bare (.usage (.scopeMismatch (Assembly.typeName kit token.id)))), b) := by
  unfold close
  rw [run_bind_ok (run_get b), if_neg other]
  rfl

section Closing

variable {kit : Kit} {b : Builder} {token : ScopeToken} {top : StackFrame}
  {below : List StackFrame} {element : Element} {reported : List String} {log : Log}

/-- Closing takes the top frame off, checks its element and attaches it to what is below. -/
theorem run_close_top (stack : b.stack = top :: below) (innermost : b.IsInnermost token)
    (checked : checkElement .strict top.span top.reported top.element b.log =
      ((element, reported), log)) :
    (close kit token).run b =
      (do
        attach kit.catalogue element top.span
        if below.isEmpty then Assembly.escalate kit element.tag (← get).log).run
          { b with stack := below, log } := by
  have popped : pop.run b = (.ok (some top), { b with stack := below }) := by
    unfold pop
    rw [run_bind_ok (run_get b), stack]
    rfl
  have validated : (onLog (checkElement .strict top.span top.reported top.element)).run
      { b with stack := below } = (.ok (element, reported), { b with stack := below, log }) := by
    rw [run_onLog]
    change (Except.ok (checkElement .strict top.span top.reported top.element b.log).1,
      { b with
        stack := below
        log := (checkElement .strict top.span top.reported top.element b.log).2 }) = _
    rw [checked]
  unfold close
  rw [run_bind_ok (run_get b), if_pos innermost, run_bind_ok popped, run_bind_ok validated]
  rfl

/-- What closing leaves is what attaching the element leaves. -/
theorem close_leaves (stack : b.stack = top :: below) (innermost : b.IsInnermost token)
    (checked : checkElement .strict top.span top.reported top.element b.log =
      ((element, reported), log)) :
    ((close kit token).run b).2 =
      ((attach kit.catalogue element top.span).run { b with stack := below, log }).2 := by
  rw [run_close_top stack innermost checked, run_bind]
  cases (attach kit.catalogue element top.span).run { b with stack := below, log } with
  | mk result b' =>
    cases result with
    | error e => rfl
    | ok _ =>
      cases below.isEmpty with
      | false => rfl
      | true =>
        change ((liftM (Assembly.escalate kit element.tag b'.log) : Building Unit).run b').2 = b'
        exact congrArg Prod.snd (run_liftExcept _ b')

end Closing

end Builder

/-! ### Assemblies as builders -/

/-- An open element as a frame of a scope. -/
def Frame.stacked (f : Frame) : StackFrame :=
  ⟨f.id, f.draft.element, .scope f.scope, f.span, f.draft.reported⟩

namespace Assembly

/-- An assembly as a builder: what is open is on the stack. -/
def stacked (a : Assembly) : Builder :=
  ⟨a.frames.map Frame.stacked, a.root, a.nextScope, a.log⟩

/-- The open elements have the types that they are numbered for. -/
def Typed (c : Catalogue) (a : Assembly) : Prop :=
  ∀ f ∈ a.frames, c.get? f.id = some f.draft.type

variable {kit : Kit} {a : Assembly}

theorem Typed.attach {c : Catalogue} (typed : a.Typed c) (span : Span) (e : Element) :
    (Assembly.attach span e a).2.Typed c := by
  cases frames : a.frames with
  | nil =>
    rw [attach_nil frames]
    exact typed
  | cons top below =>
    rw [attach_frame frames]
    rw [Typed, frames] at typed
    obtain ⟨first, rest⟩ := List.forall_mem_cons.1 typed
    exact List.forall_mem_cons.2 ⟨first, rest⟩

theorem attach_stacked {c : Catalogue} (typed : a.Typed c) (span : Span) (e : Element) :
    (Builder.attach c e span).run a.stacked = (.ok (), (Assembly.attach span e a).2.stacked) := by
  cases frames : a.frames with
  | nil =>
    rw [attach_nil frames]
    unfold Builder.attach
    rw [run_bind_ok (run_get _), stacked, frames]
    rfl
  | cons top below =>
    have found := typed top (frames ▸ List.mem_cons_self)
    have onTop : a.stacked =
        Builder.on { a with frames := below }.stacked (top.stacked.holding top.draft) := by
      rw [stacked, frames]
      rfl
    rw [onTop, Builder.run_attach_on (f := top.stacked) found, attach_frame frames]
    rfl

theorem create_stacked (typed : a.Typed kit.catalogue) (id : TypeId) (args : Arguments)
    (span : Span) :
    (Builder.create kit id args span).run a.stacked =
      (((create kit id args span).run a).1, ((create kit id args span).run a).2.stacked) := by
  unfold create
  obtain ⟨e, log, done, run⟩ | ⟨child, log, done, run⟩ :=
    Builder.create_cases kit id args span a.stacked
  · rw [run, run_bind_error (run_making done)]
    rfl
  · rw [run, run_bind_ok (run_making done)]
    exact attach_stacked (a := { a with log }) typed span child

theorem openScope_stacked (id : TypeId) (args : Arguments) (span : Span) :
    (Builder.openScope kit id args span).run a.stacked =
      (((openScope kit id args span).run a).1, ((openScope kit id args span).run a).2.stacked) := by
  unfold openScope
  obtain ⟨e, log, done, run⟩ | ⟨child, log, done, run⟩ :=
    Builder.openScope_cases kit id args span a.stacked
  · rw [run, run_bind_error (run_making done)]
    rfl
  · obtain ⟨type, known⟩ := Builder.type_of_construct done
    rw [run, run_bind_ok (run_making done), known]
    rfl

theorem close_stacked (typed : a.Typed kit.catalogue) (token : ScopeToken) :
    (Builder.close kit token).run a.stacked =
      (((close kit token).run a).1, ((close kit token).run a).2.stacked) := by
  cases frames : a.frames with
  | nil =>
    have none : ¬a.stacked.IsInnermost token := by simp [Builder.IsInnermost, stacked, frames]
    rw [close_empty kit token frames, Builder.run_close_other kit none]
  | cons top below =>
    have stack : a.stacked.stack = top.stacked :: below.map Frame.stacked := by
      rw [stacked, frames]
      rfl
    have innermost : a.stacked.IsInnermost token ↔ _ := Builder.isInnermost_iff stack
    by_cases same : top.scope = token.scope
    · rw [close_top kit token frames same,
        Builder.run_close_top stack (innermost.2 (congrArg FrameKind.scope same)) rfl]
      have rest : Typed kit.catalogue
          { a with frames := below, log := (top.draft.check .strict top.span a.log).2 } :=
        fun f member => typed f (frames ▸ List.mem_cons_of_mem top member)
      have attached := attach_stacked rest top.span
        (top.draft.check .strict top.span a.log).1.element
      refine (run_bind_ok attached _).trans ?_
      rw [List.isEmpty_map]
      cases below.isEmpty with
      | false => rfl
      | true => exact run_liftExcept _ _
    · have other := mt innermost.1 fun kind => same (FrameKind.scope.inj kind)
      rw [close_other kit token frames same, Builder.run_close_other kit other]

theorem finish_stacked :
    (Builder.finish kit).run a.stacked =
      (((finish kit).run a).1, ((finish kit).run a).2.stacked) := by
  unfold Builder.finish
  rw [run_bind_ok (run_get _)]
  cases frames : a.frames with
  | cons top below =>
    rw [finish_unclosed kit frames, stacked, frames]
    rfl
  | nil =>
    cases root : a.root with
    | none =>
      rw [finish_rootless kit frames root, stacked, frames, root]
      rfl
    | some e =>
      rw [finish_root frames root, stacked, frames, root]
      change (liftM (escalate kit (settleRoot e a.log).1.tag (settleRoot e a.log).2) >>= _ :
        Building (Document × List Diagnostic)).run _ = _
      cases escalate kit (settleRoot e a.log).1.tag (settleRoot e a.log).2 <;> rfl

/-- A call comes to the same on the stack, and leaves the same. -/
theorem call_stacked (typed : a.Typed kit.catalogue) (call : Call) :
    ((call.work kit).run a.stacked).1.map (fun _ => ()) = ((call.step kit).run a).1 ∧
      a.stacked.call kit call = (Call.run kit a call).stacked := by
  unfold Builder.call Call.run Call.work Call.step
  cases call with
  | create id args span =>
    rw [Builder.run_then, create_stacked typed]
    cases ((create kit id args span).run a).1 <;> exact ⟨rfl, rfl⟩
  | openScope id args span =>
    simp only
    rw [run_bind, openScope_stacked, run_bind]
    cases (openScope kit id args span).run a with
    | mk result a' => cases result <;> exact ⟨rfl, rfl⟩
  | close token =>
    rw [Builder.run_then, close_stacked typed]
    cases ((close kit token).run a).1 <;> exact ⟨rfl, rfl⟩

theorem Typed.create (typed : a.Typed kit.catalogue) (id : TypeId) (args : Arguments)
    (span : Span) : ((create kit id args span).run a).2.Typed kit.catalogue := by
  unfold Assembly.create
  cases done : (construct kit.catalogue span id args).run a.log with
  | mk result log =>
    cases result with
    | error e =>
      rw [run_bind_error (run_making done)]
      exact typed
    | ok child =>
      rw [run_bind_ok (run_making done)]
      exact attach (a := { a with log }) typed span child

theorem Typed.openScope (typed : a.Typed kit.catalogue) (id : TypeId) (args : Arguments)
    (span : Span) : ((openScope kit id args span).run a).2.Typed kit.catalogue := by
  unfold Assembly.openScope
  cases done : (construct kit.catalogue span id args).run a.log with
  | mk result log =>
    cases result with
    | error e =>
      rw [run_bind_error (run_making done)]
      exact typed
    | ok child =>
      obtain ⟨type, known⟩ := Builder.type_of_construct done
      rw [run_bind_ok (run_making done), known]
      exact List.forall_mem_cons.2 ⟨Catalogue.get?_of_element known, typed⟩

theorem Typed.close (typed : a.Typed kit.catalogue) (token : ScopeToken) :
    ((close kit token).run a).2.Typed kit.catalogue := by
  cases frames : a.frames with
  | nil =>
    rw [close_empty kit token frames]
    exact typed
  | cons top below =>
    by_cases same : top.scope = token.scope
    · rw [close_top kit token frames same]
      exact attach (fun f member => typed f (frames ▸ List.mem_cons_of_mem top member)) top.span _
    · rw [close_other kit token frames same]
      exact typed

theorem Typed.run (typed : a.Typed kit.catalogue) (call : Call) :
    (Call.run kit a call).Typed kit.catalogue := by
  cases call with
  | create id args span => exact typed.create id args span
  | openScope id args span =>
    rw [Call.run_openScope]
    exact typed.openScope id args span
  | close token => exact typed.close token

/-- Whatever is called, the stack holds what the assembly has open. -/
theorem runAll_stacked (typed : a.Typed kit.catalogue) (calls : List Call) :
    (a.runAll kit calls).Typed kit.catalogue ∧
      a.stacked.runAll kit calls = (a.runAll kit calls).stacked := by
  induction calls generalizing a with
  | nil => exact ⟨typed, rfl⟩
  | cons call rest ih =>
    obtain ⟨typed', run⟩ := ih (typed.run call)
    refine ⟨typed', ?_⟩
    change (a.stacked.call kit call).runAll kit rest = _
    rw [(call_stacked typed call).2, run]
    rfl

end Assembly

end ScoreScript
