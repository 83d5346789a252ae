import ScoreScript.Proofs.Building.Content
import ScoreScript.Proofs.Context.Scopes
import ScoreScript.Proofs.Run.Conduct

/-!
What one call changes. A call that fails to construct its element changes nothing but the log, and
there it only adds; so does one that closes a scope that is not innermost. A call that succeeds
changes one place: the element on top of the stack, the root, or the top of the stack itself.
Main statement: `calls_local`.
-/

namespace ScoreScript

namespace Builder

/-- The log has what it had before, perhaps with more after it. -/
def Adds (b b' : Builder) : Prop :=
  b.log.diagnostics <+: b'.log.diagnostics

/-- What is open, the document and the numbers of scopes are as they were. -/
structure Untouched (b b' : Builder) : Prop where
  stack : b'.stack = b.stack
  root : b'.root = b.root
  nextScope : b'.nextScope = b.nextScope
  adds : b.Adds b'

/-- A child was put where it belongs in an element, of which nothing else has changed but how far
it has been validated. -/
structure Grown (order : List String) (child before after : Element) : Prop where
  tag : after.tag = before.tag
  attributes : after.attributes = before.attributes
  text : after.text = before.text
  children : StableSort (fun e => Element.rank order e.tag)
    ((before.children ++ [child]).map Element.unmarked) (after.children.map Element.unmarked)

variable {kit : Kit} {b : Builder} {id : TypeId} {args : Arguments} {span : Span}

theorem adds_of_leads {b' : Builder} (leads : Log.terms.leads b.log b'.log) : b.Adds b' :=
  List.reverse_prefix.2 leads

theorem construct_leads {c : Catalogue} {log log' : Log} {result : Except Error Element}
    (done : (construct c span id args).run log = (result, log')) : Log.terms.leads log log' := by
  have leads := (construct_keeps c span id args).leads log
  rwa [done] at leads

/-- A child is attached where it belongs, and after its equals. -/
theorem attach_grown (d : Draft) (child : Element) (log : Log) :
    Grown d.type.order child d.element (d.attach span child log).1.element := by
  have checked := (Draft.check_keeps .tolerant span
    { d with element := (d.element.addChild child).sortChildren d.type.order } log).2
  obtain ⟨tag, attributes, children, text⟩ := Element.unmarked_eq_iff.1 checked
  have kept := Element.sortChildren_keeps d.type.order (d.element.addChild child)
  have sorted := Element.stableSort_sortChildren d.type.order (d.element.addChild child)
  refine ⟨tag.trans kept.1, attributes.trans kept.2.1, text.trans kept.2.2, ?_⟩
  refine Eq.subst children.symm (sorted.map fun e => ?_)
  rw [Element.unmarked_eq]

/-- The builder after an element was added to the one on top. -/
structure OnTop (c : Catalogue) (child : Element) (b b' : Builder) (top : StackFrame)
    (below : List StackFrame) : Prop where
  grown : ∃ type element reported, c.get? top.id = some type ∧
    Grown type.order child top.element element ∧
    b'.stack = { top with element, reported } :: below
  root : b'.root = b.root
  nextScope : b'.nextScope = b.nextScope
  adds : b.Adds b'

theorem attach_top {c : Catalogue} {type : ElementType} {top : StackFrame}
    {below : List StackFrame} (stack : b.stack = top :: below)
    (known : c.get? top.id = some type) (span : Span) (child : Element) :
    ∃ b', (attach c child span).run b = (.ok (), b') ∧ OnTop c child b b' top below := by
  let d : Draft := ⟨type, top.element, top.reported⟩
  have onTop : b = on { b with stack := below } (top.holding d) := by
    obtain ⟨stack', root, nextScope, log⟩ := b
    cases stack
    rfl
  have run := run_attach_on (b := { b with stack := below }) (f := top) (d := d) known child span
  rw [← onTop] at run
  refine ⟨_, run, ⟨type, _, _, known, attach_grown d child b.log, rfl⟩, rfl, rfl, ?_⟩
  exact adds_of_leads (d.attach_leads span child b.log)

theorem attach_root {c : Catalogue} (stack : b.stack = []) (child : Element) :
    (attach c child span).run b = (.ok (), { b with root := some child }) := by
  unfold attach
  rw [run_bind_ok (run_get b), stack]
  rfl

/-- What is open has a type of the catalogue. -/
def Known (c : Catalogue) (b : Builder) : Prop :=
  ∀ f ∈ b.stack, ∃ type, c.get? f.id = some type

theorem known_stacked {c : Catalogue} {a : Assembly} (typed : a.Typed c) : a.stacked.Known c := by
  intro f member
  obtain ⟨g, inside, rfl⟩ := List.mem_map.1 member
  exact ⟨_, typed g inside⟩

/-! ### Failures -/

/-- An element that was constructed is always added. -/
theorem create_untouched {e : Error} {b' : Builder} (known : b.Known kit.catalogue)
    (failed : (create kit id args span).run b = (.error e, b')) : Untouched b b' := by
  obtain ⟨e', log, done, run⟩ | ⟨child, log, done, run⟩ := create_cases kit id args span b
  · rw [run] at failed
    cases failed
    exact ⟨rfl, rfl, rfl, adds_of_leads (construct_leads done)⟩
  · rw [run] at failed
    cases stack : b.stack with
    | nil =>
      rw [attach_root (b := { b with log }) stack child] at failed
      cases failed
    | cons top below =>
      obtain ⟨type, found⟩ := known top (stack ▸ List.mem_cons_self)
      obtain ⟨b'', attached, -⟩ := attach_top (b := { b with log }) stack found span child
      rw [attached] at failed
      cases failed

theorem openScope_untouched {e : Error} {b' : Builder}
    (failed : (openScope kit id args span).run b = (.error e, b')) : Untouched b b' := by
  obtain ⟨e', log, done, run⟩ | ⟨child, log, done, run⟩ := openScope_cases kit id args span b
  · rw [run] at failed
    cases failed
    exact ⟨rfl, rfl, rfl, adds_of_leads (construct_leads done)⟩
  · rw [run] at failed
    cases failed

/-- Closing fails for its token only when the scope is not innermost. -/
theorem close_untouched {a : Assembly} (typed : a.Typed kit.catalogue) {token : ScopeToken}
    {name : String} {place : Span} {b' : Builder}
    (failed : (close kit token).run a.stacked =
      (.error ⟨.usage (.scopeMismatch name), place⟩, b')) : b' = a.stacked := by
  by_cases innermost : a.stacked.IsInnermost token
  · obtain ⟨top, head, kind⟩ := innermost
    cases frames : a.frames with
    | nil =>
      rw [Assembly.stacked, frames] at head
      cases head
    | cons first below =>
      rw [Assembly.stacked, frames] at head
      cases head
      rw [Assembly.close_stacked typed] at failed
      exact (Assembly.close_accepted frames (FrameKind.scope.inj kind)
        (congrArg Prod.fst failed)).elim
  · rw [run_close_other kit innermost] at failed
    exact (Prod.ext_iff.1 failed).2.symm

/-! ### Successes -/

/-- What is made goes into the element on top. -/
theorem create_top {b' : Builder} {top : StackFrame} {below : List StackFrame}
    (known : b.Known kit.catalogue) (stack : b.stack = top :: below)
    (done : (create kit id args span).run b = (.ok (), b')) :
    ∃ child log, (construct kit.catalogue span id args).run b.log = (.ok child, log) ∧
      OnTop kit.catalogue child b b' top below := by
  obtain ⟨e, log, -, run⟩ | ⟨child, log, made, run⟩ := create_cases kit id args span b
  · rw [run] at done
    cases done
  · obtain ⟨type, found⟩ := known top (stack ▸ List.mem_cons_self)
    obtain ⟨b'', attached, grown, root, nextScope, adds⟩ :=
      attach_top (b := { b with log }) stack found span child
    rw [run, attached] at done
    cases done
    refine ⟨child, log, made, grown, root, nextScope, ?_⟩
    exact (adds_of_leads (construct_leads made)).trans adds

/-- With nothing open, what is made becomes the root. -/
theorem create_root {b' : Builder} (stack : b.stack = [])
    (done : (create kit id args span).run b = (.ok (), b')) :
    ∃ child log, (construct kit.catalogue span id args).run b.log = (.ok child, log) ∧
      b'.root = some child ∧ b'.stack = [] ∧ b'.nextScope = b.nextScope ∧ b.Adds b' := by
  obtain ⟨e, log, -, run⟩ | ⟨child, log, made, run⟩ := create_cases kit id args span b
  · rw [run] at done
    cases done
  · rw [run, attach_root (b := { b with log }) stack child] at done
    cases done
    exact ⟨child, log, made, rfl, stack, rfl, adds_of_leads (construct_leads made)⟩

/-- What is opened becomes the top of the stack. -/
theorem openScope_top {b' : Builder} {token : ScopeToken}
    (done : (openScope kit id args span).run b = (.ok token, b')) :
    ∃ child log, (construct kit.catalogue span id args).run b.log = (.ok child, log) ∧
      token = ⟨b.nextScope, id⟩ ∧
      b'.stack = ⟨id, child, .scope b.nextScope, span, []⟩ :: b.stack ∧ b'.root = b.root ∧
      b'.nextScope = b.nextScope + 1 ∧ b.Adds b' := by
  obtain ⟨e, log, -, run⟩ | ⟨child, log, made, run⟩ := openScope_cases kit id args span b
  · rw [run] at done
    cases done
  · rw [run] at done
    cases done
    exact ⟨child, log, made, rfl, rfl, rfl, rfl, adds_of_leads (construct_leads made)⟩

end Builder

/-- A call changes one place, or none. After any calls whatsoever: if making or opening an element
fails, or closing fails for its token, then all that is open, the root and the numbers of scopes are
as before, and the diagnostics are the old ones, perhaps with more after them. An element that is
made goes among the children of the one on top, which are sorted stably, and changes nothing else;
or, with nothing open, it becomes the root. An element that is opened becomes the top of the stack.
And all this is what the assembly does. -/
theorem calls_local (kit : Kit) (registry : Registry) (calls : List Call) :
    let b := (Builder.start registry).runAll kit calls
    let a := (Assembly.start registry).runAll kit calls
    (∀ id args span,
      (∀ e b', (Builder.create kit id args span).run b = (.error e, b') → b.Untouched b') ∧
      (∀ e b', (Builder.openScope kit id args span).run b = (.error e, b') → b.Untouched b') ∧
      (∀ b' top below, b.stack = top :: below →
        (Builder.create kit id args span).run b = (.ok (), b') →
        ∃ child log, (construct kit.catalogue span id args).run b.log = (.ok child, log) ∧
          Builder.OnTop kit.catalogue child b b' top below) ∧
      (∀ b', b.stack = [] → (Builder.create kit id args span).run b = (.ok (), b') →
        ∃ child log, (construct kit.catalogue span id args).run b.log = (.ok child, log) ∧
          b'.root = some child ∧ b'.stack = [] ∧ b'.nextScope = b.nextScope ∧ b.Adds b') ∧
      ∀ token b', (Builder.openScope kit id args span).run b = (.ok token, b') →
        ∃ child log, (construct kit.catalogue span id args).run b.log = (.ok child, log) ∧
          token = ⟨b.nextScope, id⟩ ∧
          b'.stack = ⟨id, child, .scope b.nextScope, span, []⟩ :: b.stack ∧ b'.root = b.root ∧
          b'.nextScope = b.nextScope + 1 ∧ b.Adds b') ∧
    (∀ token name place b', (Builder.close kit token).run b =
      (.error ⟨.usage (.scopeMismatch name), place⟩, b') → b' = b) ∧
    b = a.stacked ∧
    ∀ call : Call, ((call.work kit).run b).1.map (fun _ => ()) = ((call.step kit).run a).1 ∧
      b.call kit call = (Call.run kit a call).stacked := by
  intro b a
  obtain ⟨typed, stacked⟩ : a.Typed kit.catalogue ∧ b = a.stacked :=
    Assembly.runAll_stacked (a := .start registry) nofun calls
  have known : b.Known kit.catalogue := stacked ▸ Builder.known_stacked typed
  refine ⟨fun id args span => ⟨fun e b' => Builder.create_untouched known,
    fun e b' => Builder.openScope_untouched, fun b' top below => Builder.create_top known,
    fun b' => Builder.create_root, fun token b' => Builder.openScope_top⟩, ?_, stacked, ?_⟩
  · intro token name place b' failed
    rw [stacked] at failed ⊢
    exact Builder.close_untouched typed failed
  · rw [stacked]
    exact Assembly.call_stacked typed

end ScoreScript
