import ScoreScript.Proofs.Building.Plan

/-!
Calls that put a document together, in any order, failed ones included. Each call is a list of
actions on the bench. Main statements, `assembly_runAll` and `finish_eq_ok`: what the calls leave
on the bench is what they leave of the assembly, and the document that is finished is the root on
the bench once it is settled.
-/

namespace ScoreScript

/-- A call that makes an element, opens one or closes it. -/
inductive Call where
  | create (id : TypeId) (args : Arguments) (span : Span)
  | openScope (id : TypeId) (args : Arguments) (span : Span)
  | close (token : ScopeToken)

namespace Call

def step (kit : Kit) : Call → Step Unit
  | .create id args span => Assembly.create kit id args span
  | .openScope id args span => Assembly.openScope kit id args span >>= fun _ => return ()
  | .close token => Assembly.close kit token

/-- What a call leaves, whether or not it failed. -/
def run (kit : Kit) (a : Assembly) (call : Call) : Assembly :=
  ((call.step kit).run a).2

/-- The token of a scope is for its caller only. -/
theorem run_openScope (kit : Kit) (a : Assembly) (id : TypeId) (args : Arguments) (span : Span) :
    Call.run kit a (.openScope id args span) = ((Assembly.openScope kit id args span).run a).2 := by
  unfold Call.run Call.step
  rw [run_bind]
  cases (Assembly.openScope kit id args span).run a with
  | mk result a' => cases result <;> rfl

/-- A construction, then the action that it was for, unless it failed. -/
def constructing (c : Catalogue) (id : TypeId) (args : Arguments) (span : Span)
    (last : Action) : List Action :=
  let plan := constructPlan c span id args
  plan.actions ++ [match plan.failure with
    | none => last
    | some _ => .discard]

/-- The actions of a call. -/
def actions (c : Catalogue) (b : Bench) : Call → List Action
  | .create id args span => constructing c id args span (.attach span)
  | .openScope id args span => constructing c id args span .keep
  | .close token =>
    match b.works with
    | w :: _ => if w.scope = some token.scope then [.close] else []
    | [] => []

end Call

/-- What calls leave one after the other. -/
def Assembly.runAll (a : Assembly) (kit : Kit) (calls : List Call) : Assembly :=
  calls.foldl (Call.run kit) a

namespace Assembly

theorem attach_nil {a : Assembly} (frames : a.frames = []) (span : Span) (e : Element) :
    attach span e a = ((), { a with root := some e }) := by
  obtain ⟨frames', root, nextScope, log⟩ := a
  cases frames
  rfl

theorem attach_frame {a : Assembly} {top : Frame} {below : List Frame}
    (frames : a.frames = top :: below) (span : Span) (e : Element) :
    attach span e a =
      ((), { a with
        frames := { top with draft := (top.draft.attach span e a.log).1 } :: below
        log := (top.draft.attach span e a.log).2 }) := by
  obtain ⟨frames', root, nextScope, log⟩ := a
  cases frames
  rfl

theorem run_making {α : Type} {work : Making α} {a : Assembly} {result : Except Error α} {log : Log}
    (done : work.run a.log = (result, log)) :
    (making work).run a = (result, { a with log }) := by
  change (let (result, log) := work.run a.log; (result, { a with log })) = _
  rw [done]

/-- A construction that fails leaves nothing but what was logged. -/
theorem create_failed {kit : Kit} {id : TypeId} {args : Arguments} {span : Span} {a : Assembly}
    {e : Error} {log : Log}
    (failed : (construct kit.catalogue span id args).run a.log = (.error e, log)) :
    (create kit id args span).run a = (.error e, { a with log }) :=
  run_bind_error (run_making failed) _

theorem openScope_failed {kit : Kit} {id : TypeId} {args : Arguments} {span : Span} {a : Assembly}
    {e : Error} {log : Log}
    (failed : (construct kit.catalogue span id args).run a.log = (.error e, log)) :
    (openScope kit id args span).run a = (.error e, { a with log }) :=
  run_bind_error (run_making failed) _

/-- What is made is attached to what there is. -/
theorem create_made {kit : Kit} {id : TypeId} {args : Arguments} {span : Span} {a : Assembly}
    {e : Element} {log : Log}
    (done : (construct kit.catalogue span id args).run a.log = (.ok e, log)) :
    (create kit id args span).run a = (.ok (), (attach span e { a with log }).2) :=
  run_bind_ok (run_making done) _

/-- What is made is the innermost open element, under a number of its own. -/
theorem openScope_made {kit : Kit} {id : TypeId} {args : Arguments} {span : Span} {a : Assembly}
    {e : Element} {log : Log} {type : ElementType} (known : kit.catalogue.get? id = some type)
    (done : (construct kit.catalogue span id args).run a.log = (.ok e, log)) :
    (openScope kit id args span).run a =
      (.ok ⟨a.nextScope, id⟩,
        { a with
          frames := ⟨id, ⟨type, e, []⟩, a.nextScope, span⟩ :: a.frames
          nextScope := a.nextScope + 1
          log }) := by
  have found : kit.catalogue.element id = .ok type := by rw [Catalogue.element, known]
  rw [openScope, run_bind_ok (run_making done), found]
  rfl

theorem close_empty (kit : Kit) (token : ScopeToken) {a : Assembly} (frames : a.frames = []) :
    (close kit token).run a =
      (.error (.bare (.usage (.scopeMismatch (typeName kit token.id)))), a) := by
  unfold close
  rw [run_bind_ok (run_get a), frames]
  rfl

theorem close_other (kit : Kit) (token : ScopeToken) {a : Assembly} {top : Frame}
    {below : List Frame} (frames : a.frames = top :: below) (other : top.scope ≠ token.scope) :
    (close kit token).run a =
      (.error (.bare (.usage (.scopeMismatch (typeName kit token.id)))), a) := by
  unfold close
  rw [run_bind_ok (run_get a), frames]
  simp only [if_neg other]
  rfl

/-- What closing leaves: the element is checked and goes where it belongs. -/
def closed (top : Frame) (below : List Frame) (a : Assembly) : Assembly :=
  let (draft, log) := top.draft.check .strict top.span a.log
  (attach top.span draft.element { a with frames := below, log }).2

/-- A violation is an error when the outermost element is closed, but it changes nothing. -/
theorem close_top (kit : Kit) (token : ScopeToken) {a : Assembly} {top : Frame}
    {below : List Frame} (frames : a.frames = top :: below) (same : top.scope = token.scope) :
    (close kit token).run a =
      ((if below.isEmpty then
          escalate kit (top.draft.check .strict top.span a.log).1.element.tag
            (a.closed top below).log
        else .ok ()),
        a.closed top below) := by
  unfold close
  rw [run_bind_ok (run_get a), frames]
  simp only [if_pos same]
  have done (work : Step Assembly) (reads : ∀ a, work.run a = (.ok a, a))
      (finally' : Assembly → Except Error Unit) (a : Assembly) :
      (if below.isEmpty then work >>= fun a => liftM (finally' a) else pure () : Step Unit).run a =
        (if below.isEmpty then finally' a else .ok (), a) := by
    split
    · rw [run_bind_ok (reads a)]
      exact run_liftExcept (finally' a) a
    · rfl
  exact done get run_get
    (fun a' => escalate kit (top.draft.check .strict top.span a.log).1.element.tag a'.log) _

theorem close_top_lenient {kit : Kit} (lenient : kit.strict = false) {token : ScopeToken}
    {a : Assembly} {top : Frame} {below : List Frame} (frames : a.frames = top :: below)
    (same : top.scope = token.scope) :
    (close kit token).run a = (.ok (), a.closed top below) := by
  rw [close_top kit token frames same, escalate, lenient]
  simp

theorem finish_unclosed (kit : Kit) {a : Assembly} {top : Frame} {below : List Frame}
    (frames : a.frames = top :: below) :
    (finish kit).run a =
      (.error ⟨.usage (.unclosedScope (typeName kit top.id)), top.span⟩, a) := by
  unfold finish
  rw [run_bind_ok (run_get a), frames]
  rfl

theorem finish_rootless (kit : Kit) {a : Assembly} (frames : a.frames = [])
    (missing : a.root = none) :
    (finish kit).run a = (.error (.bare (.usage .emptyDocument)), a) := by
  unfold finish
  rw [run_bind_ok (run_get a), frames, missing]
  rfl

/-- With a root and nothing open, all depends on whether a violation is an error. -/
theorem finish_root {kit : Kit} {a : Assembly} {root : Element} (frames : a.frames = [])
    (made : a.root = some root) :
    (finish kit).run a =
      ((escalate kit (settleRoot root a.log).1.tag (settleRoot root a.log).2).map fun _ =>
          (⟨kit.catalogue.header (settleRoot root a.log).1.tag, (settleRoot root a.log).1⟩,
            (settleRoot root a.log).2.diagnostics),
        { a with log := (settleRoot root a.log).2 }) := by
  obtain ⟨frames', root', nextScope, log⟩ := a
  cases frames
  cases made
  unfold finish
  rw [run_bind_ok (run_get (⟨[], some root, nextScope, log⟩ : Assembly))]
  have checked : (checking (settleRoot root)).run ⟨[], some root, nextScope, log⟩ =
      (.ok (settleRoot root log).1, ⟨[], some root, nextScope, (settleRoot root log).2⟩) := rfl
  simp only
  rw [run_bind_ok checked]
  change (liftM (escalate kit (settleRoot root log).1.tag (settleRoot root log).2) >>= _ :
    Step (Document × List Diagnostic)).run ⟨[], some root, nextScope, (settleRoot root log).2⟩ = _
  cases escalate kit (settleRoot root log).1.tag (settleRoot root log).2 <;> rfl

theorem escalate_eq_ok {kit : Kit} {tag : String} {log : Log} {u : Unit}
    (passed : escalate kit tag log = .ok u) (strict : kit.strict = true) :
    log.diagnostics = [] := by
  rw [escalate, if_pos strict] at passed
  split at passed
  · assumption
  · cases passed

end Assembly

/-- What is under construction is no open element yet. -/
theorem Work.frame?_of_own (w : Work) (own : w.own = true) : w.frame? = none := by
  unfold Work.own at own
  rw [Work.frame?, Option.isNone_iff_eq_none.1 own]
  rfl

namespace Bench

def call (c : Catalogue) (b : Bench) (call : Call) : Bench :=
  b.performAll c (call.actions c b)

def runAll (b : Bench) (c : Catalogue) (calls : List Call) : Bench :=
  calls.foldl (Bench.call c) b

/-- Between calls no construction is at work. -/
def Idle (b : Bench) : Prop :=
  ∀ w ∈ b.works, w.own = false

theorem start_assembly (registry : Registry) : (start registry).assembly = .start registry :=
  rfl

theorem start_idle (registry : Registry) : (start registry).Idle :=
  fun _ member => nomatch member

theorem Idle.of_cons {b : Bench} (idle : b.Idle) {w : Work} {below : List Work}
    (works : b.works = w :: below) :
    (∃ scope, w.scope = some scope) ∧ ∀ w ∈ below, w.own = false := by
  unfold Idle at idle
  rw [works] at idle
  obtain ⟨top, rest⟩ := List.forall_mem_cons.1 idle
  refine ⟨Option.isSome_iff_exists.1 ?_, rest⟩
  unfold Work.own at top
  rwa [Option.isNone_eq_false_iff] at top

theorem assembly_frames {b : Bench} {w : Work} {below : List Work} {scope : Nat}
    (works : b.works = w :: below) (top : w.scope = some scope) :
    b.assembly.frames = ⟨w.id, w.draft, scope, w.span⟩ :: below.filterMap Work.frame? := by
  simp only [assembly, works, List.filterMap_cons, Work.frame?, top, Option.map_some]

theorem assembly_frames_nil {b : Bench} (closed : b.works = []) : b.assembly.frames = [] := by
  simp only [assembly, closed, List.filterMap_nil]

theorem dropWhile_own {works : List Work} (idle : ∀ w ∈ works, w.own = false) :
    works.dropWhile (·.own) = works := by
  cases works with
  | nil => rfl
  | cons w below =>
    rw [List.dropWhile_cons_of_neg]
    rw [idle w List.mem_cons_self]
    exact Bool.false_ne_true

theorem place_idle {b : Bench} (idle : b.Idle) (span : Span) (p : Piece) :
    (b.place span p).Idle := by
  cases works : b.works with
  | nil =>
    rw [place, works]
    intro w member
    exact idle w (by rwa [works] at *)
  | cons w below =>
    rw [place_on works]
    obtain ⟨⟨scope, top⟩, rest⟩ := idle.of_cons works
    refine List.forall_mem_cons.2 ⟨?_, rest⟩
    simp [Work.own, top]

/-- A check changes nothing of an assembly but the log. -/
theorem check_assembly (mode : Mode) (span : Span) (own : Bool) (p : Piece)
    (reported : List String) (b : Bench) :
    (b.check mode span own p reported).2.assembly =
      { b.assembly with log := (b.check mode span own p reported).2.log } := by
  simp only [assembly, check_works, check_root, check_nextScope]

/-- A finished piece goes where its element goes. -/
theorem attach_assembly {b : Bench} (idle : b.Idle) (span : Span) (p : Piece) :
    Assembly.attach span p.element b.assembly = ((), (b.place span p).assembly) := by
  cases works : b.works with
  | nil =>
    rw [place, works]
    simp only [assembly, works]
    rfl
  | cons w below =>
    rw [place_on works]
    obtain ⟨⟨scope, top⟩, rest⟩ := idle.of_cons works
    rw [Assembly.attach_frame (assembly_frames works top)]
    have attached := attach_draft b span w p
    have same : b.assembly.log = b.log := rfl
    simp only [same, attached]
    simp only [assembly, List.filterMap_cons, Work.frame?, top, adopt, check_root,
      check_nextScope]
    rfl

/-- After a construction the bench is as it was but for the log and for what was made. -/
theorem assembly_keeps {b b' : Bench} (kept : b.Keeps b')
    (frames : b'.works.filterMap Work.frame? = b.works.filterMap Work.frame?) :
    b'.assembly = { b.assembly with log := b'.log } := by
  simp only [assembly, frames, kept.root, kept.nextScope]

theorem frames_of_piledOn {below works : List Work} (piled : Work.PiledOn below works) :
    works.filterMap Work.frame? = below.filterMap Work.frame? := by
  obtain ⟨top, rfl, tops⟩ := piled
  rw [List.filterMap_append]
  have none : top.filterMap Work.frame? = [] := by
    rw [List.filterMap_eq_nil_iff]
    exact fun w member => w.frame?_of_own (tops w member)
  rw [none, List.nil_append]

theorem dropWhile_of_piledOn {below works : List Work} (piled : Work.PiledOn below works)
    (idle : ∀ w ∈ below, w.own = false) : works.dropWhile (·.own) = below := by
  obtain ⟨top, rfl, tops⟩ := piled
  rw [List.dropWhile_append_of_pos tops, dropWhile_own idle]

/-- A construction on the bench is the construction on the assembly, done or failed. -/
theorem run_construct (b : Bench) (c : Catalogue) (id : TypeId) (args : Arguments) (span : Span) :
    match (constructPlan c span id args).failure with
    | none => ∃ w : Work,
        (b.performAll c (constructPlan c span id args).actions).works = w :: b.works ∧
        w.own = true ∧ w.id = id ∧ w.span = span ∧ c.get? id = some w.type ∧
        (Assembly.making (construct c span id args)).run b.assembly =
          (.ok w.piece.element, (b.performAll c (constructPlan c span id args).actions).assembly)
    | some e =>
        Work.PiledOn b.works (b.performAll c (constructPlan c span id args).actions).works ∧
        (Assembly.making (construct c span id args)).run b.assembly =
          (.error e, (b.performAll c (constructPlan c span id args).actions).assembly) := by
  obtain ⟨kept, outcome⟩ := construct_made c span id args b
  cases failed : (constructPlan c span id args).failure with
  | some e =>
    rw [failed] at outcome
    obtain ⟨piled, run⟩ := outcome
    refine ⟨piled, ?_⟩
    rw [assembly_keeps kept (frames_of_piledOn piled)]
    exact Assembly.run_making run
  | none =>
    rw [failed] at outcome
    obtain ⟨w, works, own, named, placed, typed, run⟩ := outcome
    refine ⟨w, works, own, named, placed, typed, ?_⟩
    have piled :
        Work.PiledOn b.works (b.performAll c (constructPlan c span id args).actions).works :=
      ⟨[w], works, fun w' member => by rw [List.mem_singleton.1 member, own]⟩
    rw [assembly_keeps kept (frames_of_piledOn piled)]
    exact Assembly.run_making run

theorem discard_of_piledOn {b b' : Bench} (c : Catalogue) (idle : b.Idle)
    (piled : Work.PiledOn b.works b'.works) :
    (b'.perform c .discard).assembly = b'.assembly ∧ (b'.perform c .discard).Idle := by
  obtain ⟨lost, history, -, given⟩ := b'.discard_eq rfl
  rw [dropWhile_of_piledOn piled idle] at given
  change (b'.discard b'.works).assembly = b'.assembly ∧ (b'.discard b'.works).Idle
  rw [given]
  refine ⟨?_, idle⟩
  simp only [assembly, frames_of_piledOn piled]
  rfl

theorem create_assembly {b : Bench} (idle : b.Idle) (kit : Kit) (id : TypeId) (args : Arguments)
    (span : Span) :
    (b.call kit.catalogue (.create id args span)).assembly =
        ((Assembly.create kit id args span).run b.assembly).2 ∧
      (b.call kit.catalogue (.create id args span)).Idle := by
  have made := b.run_construct kit.catalogue id args span
  simp only [call, Call.actions, Call.constructing, performAll_append, performAll_cons,
    performAll_nil]
  unfold Assembly.create
  generalize b.performAll _ _ = b' at *
  cases failed : (constructPlan kit.catalogue span id args).failure with
  | some e =>
    rw [failed] at made
    obtain ⟨piled, run⟩ := made
    rw [run_bind_error run]
    exact discard_of_piledOn kit.catalogue idle piled
  | none =>
    rw [failed] at made
    obtain ⟨w, works, own, -, -, -, run⟩ := made
    rw [run_bind_ok run]
    simp only [perform_attach kit.catalogue span works own]
    have idle' : (b'.released w b.works).Idle := idle
    refine ⟨?_, place_idle idle' span w.piece⟩
    have same : b'.assembly = (b'.released w b.works).assembly := by
      simp only [assembly, works, List.filterMap_cons, w.frame?_of_own own]
      rfl
    have attached := attach_assembly idle' span w.piece
    rw [← same] at attached
    change _ = ((Assembly.attach span w.piece.element b'.assembly).2 : Assembly)
    rw [attached]

theorem openScope_assembly {b : Bench} (idle : b.Idle) (kit : Kit) (id : TypeId)
    (args : Arguments) (span : Span) :
    (b.call kit.catalogue (.openScope id args span)).assembly =
        ((Assembly.openScope kit id args span).run b.assembly).2 ∧
      (b.call kit.catalogue (.openScope id args span)).Idle := by
  have made := b.run_construct kit.catalogue id args span
  simp only [call, Call.actions, Call.constructing, performAll_append, performAll_cons,
    performAll_nil]
  unfold Assembly.openScope
  generalize b.performAll _ _ = b' at *
  cases failed : (constructPlan kit.catalogue span id args).failure with
  | some e =>
    rw [failed] at made
    obtain ⟨piled, run⟩ := made
    rw [run_bind_error run]
    exact discard_of_piledOn kit.catalogue idle piled
  | none =>
    rw [failed] at made
    obtain ⟨w, works, own, named, placed, typed, run⟩ := made
    rw [run_bind_ok run]
    simp only [perform_keep kit.catalogue works own]
    have found : kit.catalogue.element id = .ok w.type := by
      rw [Catalogue.element, typed]
    rw [found]
    constructor
    · simp only [assembly, works, List.filterMap_cons, w.frame?_of_own own]
      rw [← named, ← placed]
      rfl
    · exact List.forall_mem_cons.2 ⟨rfl, idle⟩

theorem close_assembly {b : Bench} (idle : b.Idle) (kit : Kit) (token : ScopeToken) :
    (b.call kit.catalogue (.close token)).assembly =
        ((Assembly.close kit token).run b.assembly).2 ∧
      (b.call kit.catalogue (.close token)).Idle := by
  cases works : b.works with
  | nil =>
    rw [Assembly.close_empty kit token (assembly_frames_nil works)]
    simp only [call, Call.actions, works]
    exact ⟨rfl, idle⟩
  | cons w below =>
    obtain ⟨⟨scope, top⟩, rest⟩ := idle.of_cons works
    have frames := assembly_frames works top
    simp only [call, Call.actions, works, top, Option.some.injEq]
    by_cases same : scope = token.scope
    · rw [if_pos same, Assembly.close_top kit token frames same, performAll_cons, performAll_nil,
        perform_close kit.catalogue works (idle w (by rw [works]; exact List.mem_cons_self))]
      have idle' : (({ b with works := below } : Bench).check .strict w.span false w.piece
          w.reported).2.Idle := by
        intro w' member
        rw [check_works] at member
        exact rest w' member
      refine ⟨?_, place_idle idle' _ _⟩
      have checked := checkElement_log .strict w.span false w.piece w.reported
        { b with works := below }
      have drafted : w.draft.check .strict w.span b.assembly.log = (⟨w.type, _, _⟩, _) :=
        congrArg (fun result : (Element × List String) × Log =>
          ((⟨w.type, result.1.1, result.1.2⟩ : Draft), result.2)) checked
      have attached := attach_assembly idle' w.span
        (({ b with works := below } : Bench).check .strict w.span false w.piece w.reported).1.1
      rw [check_assembly] at attached
      simp only [Assembly.closed, drafted]
      exact (congrArg Prod.snd attached).symm
    · rw [if_neg same, Assembly.close_other kit token frames same]
      exact ⟨rfl, idle⟩

/-- A call does to the bench what it does to the assembly. -/
theorem call_assembly {b : Bench} (idle : b.Idle) (kit : Kit) (call : Call) :
    (b.call kit.catalogue call).assembly = call.run kit b.assembly ∧
      (b.call kit.catalogue call).Idle := by
  cases call with
  | create id args span => exact create_assembly idle kit id args span
  | openScope id args span =>
    obtain ⟨same, idle'⟩ := openScope_assembly idle kit id args span
    exact ⟨same.trans (Call.run_openScope kit b.assembly id args span).symm, idle'⟩
  | close token => exact close_assembly idle kit token

/-- What calls leave on the bench is what they leave of the assembly. -/
theorem assembly_runAll {b : Bench} (idle : b.Idle) (kit : Kit) (calls : List Call) :
    (b.runAll kit.catalogue calls).assembly = b.assembly.runAll kit calls ∧
      (b.runAll kit.catalogue calls).Idle := by
  induction calls generalizing b with
  | nil => exact ⟨rfl, idle⟩
  | cons call rest ih =>
    obtain ⟨same, idle'⟩ := call_assembly idle kit call
    have step := ih idle'
    rw [same] at step
    exact step

/-! ### The end -/

/-- The bench when the document is finished. -/
def finish (c : Catalogue) (b : Bench) : Bench :=
  b.perform c .settle

/-- A root is settled on the bench as it is in the log. -/
theorem finish_settles {b : Bench} (closed : b.works = []) {p : Piece} (root : b.root = some p)
    (c : Catalogue) :
    ∃ q, (b.finish c).root = some q ∧
      Assembly.settleRoot p.element b.assembly.log = (q.element, (b.finish c).log) := by
  simp only [finish, perform, closed, root]
  unfold Assembly.settleRoot
  rw [Piece.element_settled]
  cases settled : p.settled with
  | true => exact ⟨p, root, rfl⟩
  | false =>
    refine ⟨(b.check .strict .nowhere false p []).1.1, rfl, ?_⟩
    have checked := checkElement_log .strict .nowhere false p [] b
    exact congrArg (fun result : (Element × List String) × Log => (result.1.1, result.2)) checked

/-- What the end of the calls comes to: something is open, nothing was made, or the root is
settled. -/
theorem finish_run {b : Bench} (idle : b.Idle) (kit : Kit) :
    (∃ e, (Assembly.finish kit).run b.assembly = (.error e, b.assembly) ∧
        b.finish kit.catalogue = b) ∨
      b.works = [] ∧ ∃ q, (b.finish kit.catalogue).root = some q ∧
        (Assembly.finish kit).run b.assembly =
          ((Assembly.escalate kit q.element.tag (b.finish kit.catalogue).log).map fun _ =>
              (⟨kit.catalogue.header q.element.tag, q.element⟩,
                (b.finish kit.catalogue).log.diagnostics),
            { b.assembly with log := (b.finish kit.catalogue).log }) := by
  cases works : b.works with
  | cons w below =>
    obtain ⟨⟨scope, top⟩, -⟩ := idle.of_cons works
    refine .inl ⟨_, Assembly.finish_unclosed kit (assembly_frames works top), ?_⟩
    simp only [finish, perform, works]
  | nil =>
    have frames := assembly_frames_nil works
    cases root : b.root with
    | none =>
      have missing : b.assembly.root = none := by
        simp only [assembly, root, Option.map_none]
      refine .inl ⟨_, Assembly.finish_rootless kit frames missing, ?_⟩
      simp only [finish, perform, works, root]
    | some p =>
      have made : b.assembly.root = some p.element := by
        simp only [assembly, root, Option.map_some]
      obtain ⟨q, rooted, settled⟩ := finish_settles works root kit.catalogue
      refine .inr ⟨rfl, q, rooted, ?_⟩
      rw [Assembly.finish_root frames made, settled]

/-- The end is logged on the bench, too, whether or not it fails. -/
theorem finish_log {b : Bench} (idle : b.Idle) (kit : Kit) :
    ((Assembly.finish kit).run b.assembly).2.log = (b.finish kit.catalogue).log := by
  rcases finish_run idle kit with ⟨e, failed, same⟩ | ⟨-, q, -, settled⟩
  · rw [failed, same]
    rfl
  · rw [settled]

/-- The document that is finished is the settled root, and its diagnostics are the notes; with
strict validation there are none. -/
theorem finish_eq_ok {b : Bench} (idle : b.Idle) {kit : Kit} {a : Assembly} {d : Document}
    {found : List Diagnostic}
    (finished : (Assembly.finish kit).run b.assembly = (.ok (d, found), a)) :
    b.works = [] ∧
      (∃ p, (b.finish kit.catalogue).root = some p ∧ d.root = p.element) ∧
      found = (b.finish kit.catalogue).log.diagnostics ∧
      (kit.strict = true → found = []) := by
  rcases finish_run idle kit with ⟨e, failed, -⟩ | ⟨closed, q, rooted, settled⟩
  · rw [failed] at finished
    cases finished
  · rw [settled] at finished
    cases passed : Assembly.escalate kit q.element.tag (b.finish kit.catalogue).log with
    | error e =>
      rw [passed] at finished
      cases finished
    | ok u =>
      rw [passed] at finished
      cases finished
      exact ⟨closed, ⟨q, rooted, rfl⟩, rfl, Assembly.escalate_eq_ok passed⟩

end Bench

end ScoreScript
