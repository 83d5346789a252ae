import ScoreScript.Proofs.Building.Call
import ScoreScript.Proofs.Run.Composition

/-!
What a run does, apart from what its values are: which errors it can end with, and that it changes
the document by calls only. Strict validation makes no difference, unless it ends the run where the
lenient run goes on. Each piece of work keeps to these terms, and putting pieces of work together
keeps them. Main statements: `whole_fails`, `whole_calls`, `whole_refused` and `whole_quiet`.
-/

namespace ScoreScript

variable {σ α β : Type}

/-- What work on a state is held to: the errors that it can end with, the states that it can lead
to, and the errors that refuse what was done up to a state. -/
structure Terms (σ : Type) where
  allows : Error → Prop
  leads : σ → σ → Prop
  refuses : σ → Error → Prop
  refl : ∀ s, leads s s
  trans : ∀ {s t u}, leads s t → leads t u → leads s u

/-- Work keeps to the terms. It does what its lenient twin does, unless it is refused in a state
from which the twin goes on. -/
structure Keeps (terms : Terms σ) (work twin : ExceptT Error (StateM σ) α) : Prop where
  allows : ∀ s e, (work.run s).1 = .error e → terms.allows e
  leads : ∀ s, terms.leads s (work.run s).2
  twinLeads : ∀ s, terms.leads s (twin.run s).2
  refused : ∀ s, work.run s = twin.run s ∨
    ∃ e t, work.run s = (.error e, t) ∧ terms.refuses t e ∧ terms.leads t (twin.run s).2

namespace Keeps

variable {terms : Terms σ}

theorem pure (a : α) :
    Keeps terms (Pure.pure a : ExceptT Error (StateM σ) α) (Pure.pure a) where
  allows s e failed := by cases failed
  leads := terms.refl
  twinLeads := terms.refl
  refused _ := .inl rfl

theorem throw {e : Error} (fits : terms.allows e) :
    Keeps terms (MonadExcept.throw e : ExceptT Error (StateM σ) α) (MonadExcept.throw e) where
  allows s e' failed := by
    cases failed
    exact fits
  leads := terms.refl
  twinLeads := terms.refl
  refused _ := .inl rfl

theorem bind {work twin : ExceptT Error (StateM σ) α} {next next' : α → ExceptT Error (StateM σ) β}
    (first : Keeps terms work twin) (rest : ∀ a, Keeps terms (next a) (next' a)) :
    Keeps terms (work >>= next) (twin >>= next') := by
  have twinOn (s : σ) : terms.leads (twin.run s).2 ((twin >>= next').run s).2 := by
    rw [run_bind]
    cases twin.run s with
    | mk result s' =>
      cases result with
      | ok a => exact (rest a).twinLeads s'
      | error e => exact terms.refl s'
  constructor
  · intro s e failed
    rw [run_bind] at failed
    cases done : work.run s with
    | mk result s' =>
      rw [done] at failed
      cases result with
      | ok a => exact (rest a).allows s' e failed
      | error e' =>
        cases failed
        exact first.allows s e (by rw [done])
  · intro s
    have here := first.leads s
    rw [run_bind]
    cases done : work.run s with
    | mk result s' =>
      rw [done] at here
      cases result with
      | ok a => exact terms.trans here ((rest a).leads s')
      | error e => exact here
  · exact fun s => terms.trans (first.twinLeads s) (twinOn s)
  · intro s
    rcases first.refused s with same | ⟨e, t, ended, refuses, onward⟩
    · rw [run_bind, run_bind, ← same]
      cases work.run s with
      | mk result s' =>
        cases result with
        | ok a => exact (rest a).refused s'
        | error e => exact .inl rfl
    · exact .inr ⟨e, t, run_bind_error ended next, refuses, terms.trans onward (twinOn s)⟩

/-- Work that does not fail. -/
theorem liftState {work : StateM σ α} (leads : ∀ s, terms.leads s (work s).2) :
    Keeps terms (MonadLift.monadLift work : ExceptT Error (StateM σ) α)
      (MonadLift.monadLift work) where
  allows s e failed := by cases failed
  leads := leads
  twinLeads := leads
  refused _ := .inl rfl

theorem of_run {work : ExceptT Error (StateM σ) α} (value : σ → α) {next : σ → σ}
    (runs : ∀ s, work.run s = (.ok (value s), next s)) (leads : ∀ s, terms.leads s (next s)) :
    Keeps terms work work where
  allows s e failed := by
    rw [runs] at failed
    cases failed
  leads s := by
    rw [runs]
    exact leads s
  twinLeads s := by
    rw [runs]
    exact leads s
  refused _ := .inl rfl

theorem liftExcept {result : Except Error α} (fits : ∀ e, result = .error e → terms.allows e) :
    Keeps terms (MonadLift.monadLift result : ExceptT Error (StateM σ) α)
      (MonadLift.monadLift result) where
  allows s e failed := by
    rw [run_liftExcept] at failed
    exact fits e failed
  leads s := by
    rw [run_liftExcept]
    exact terms.refl s
  twinLeads s := by
    rw [run_liftExcept]
    exact terms.refl s
  refused _ := .inl rfl

/-- What is kept to stricter terms is kept to weaker ones. -/
theorem weaken {strict weak : Terms σ} {work twin : ExceptT Error (StateM σ) α}
    (keeps : Keeps strict work twin) (allows : ∀ e, strict.allows e → weak.allows e)
    (leads : ∀ s t, strict.leads s t → weak.leads s t)
    (refuses : ∀ s e, strict.refuses s e → weak.refuses s e) : Keeps weak work twin where
  allows s e failed := allows e (keeps.allows s e failed)
  leads s := leads _ _ (keeps.leads s)
  twinLeads s := leads _ _ (keeps.twinLeads s)
  refused s := (keeps.refused s).imp_right fun ⟨e, t, ended, refused, onward⟩ =>
    ⟨e, t, ended, refuses t e refused, leads _ _ onward⟩

end Keeps

/-- The error that a log is refused with: it tells of the first diagnostic, and how many there
are. -/
def Log.Refuses (log : Log) (e : Error) : Prop :=
  ∃ tag first rest, log.diagnostics = first :: rest ∧
    e = ⟨.invalid tag log.diagnostics.length first.violation.text, first.span⟩

theorem Log.Refuses.found_ne_nil {log : Log} {e : Error} (told : log.Refuses e) :
    log.found ≠ [] := by
  obtain ⟨tag, first, rest, found, -⟩ := told
  intro quiet
  rw [Log.diagnostics, quiet] at found
  cases found

/-- Construction fails for a cause of runs only, and adds to the log. -/
def Log.terms : Terms Log where
  allows e := e.cause.OfRun
  leads log log' := log.found <:+ log'.found
  refuses := Log.Refuses
  refl log := List.suffix_refl log.found
  trans := List.IsSuffix.trans

/-- So do the calls that put a document together. -/
def Assembly.terms : Terms Assembly where
  allows := Log.terms.allows
  leads a a' := Log.terms.leads a.log a'.log
  refuses a := Log.terms.refuses a.log
  refl a := Log.terms.refl a.log
  trans := Log.terms.trans

/-- So does a run as a whole. -/
def Session.logTerms : Terms Session where
  allows := Log.terms.allows
  leads s s' := Log.terms.leads s.assembly.log s'.assembly.log
  refuses s := Log.terms.refuses s.assembly.log
  refl s := Log.terms.refl s.assembly.log
  trans := Log.terms.trans

/-- What a run executes changes the document by calls. -/
def Session.terms (kit : Kit) : Terms Session where
  allows := Log.terms.allows
  leads s s' := Log.terms.leads s.assembly.log s'.assembly.log ∧
    ∃ calls, s'.assembly = s.assembly.runAll kit calls
  refuses s := Log.terms.refuses s.assembly.log
  refl s := ⟨Log.terms.refl _, [], rfl⟩
  trans first second := by
    obtain ⟨more, calls, rfl'⟩ := first
    obtain ⟨further, calls', rfl''⟩ := second
    refine ⟨Log.terms.trans more further, calls ++ calls', ?_⟩
    rw [rfl'', rfl', Assembly.runAll, Assembly.runAll, Assembly.runAll, List.foldl_append]

/-! ### Construction -/

theorem report_leads (mode : Mode) (span : Span) (reported : List String) (log : Log)
    (found : List Violation) : Log.terms.leads log (report mode span reported log found).2 := by
  induction found generalizing reported log with
  | nil => exact Log.terms.refl log
  | cons v rest ih =>
    rw [report]
    split
    · exact ih reported log
    · have added : Log.terms.leads log (log.add ⟨span, mode, v⟩) := List.suffix_cons _ _
      exact Log.terms.trans added (ih _ _)

theorem checkElement_leads (mode : Mode) (span : Span) (reported : List String) (e : Element)
    (log : Log) : Log.terms.leads log (checkElement mode span reported e log).2 := by
  unfold checkElement
  simp only
  split
  · exact Log.terms.refl log
  · exact report_leads mode span reported { log with registry := log.registry.record e.tag } _

namespace Draft

theorem attach_leads (span : Span) (child : Element) (d : Draft) (log : Log) :
    Log.terms.leads log (d.attach span child log).2 :=
  checkElement_leads .tolerant span d.reported _ log

end Draft

/-- Construction keeps to the terms of logs. -/
theorem Making.Composed.keeps {work : Making α} (composed : Making.Composed work) :
    Keeps Log.terms work work := by
  induction composed with
  | pure a => exact .pure a
  | throw fits => exact .throw fits
  | bind _ _ first rest => exact .bind first rest
  | attach span child d => exact .liftState (Draft.attach_leads span child d)

theorem construct_keeps (c : Catalogue) (span : Span) (id : TypeId) (args : Arguments) :
    Keeps Log.terms (construct c span id args) (construct c span id args) :=
  (construct_composed c span id args).keeps

namespace Assembly

theorem making_keeps {work : Making α} (keeps : Keeps Log.terms work work) :
    Keeps terms (making work) (making work) where
  allows a e failed := keeps.allows a.log e failed
  leads a := keeps.leads a.log
  twinLeads a := keeps.leads a.log
  refused _ := .inl rfl

theorem attach_leads (span : Span) (e : Element) (a : Assembly) :
    terms.leads a (attach span e a).2 := by
  cases frames : a.frames with
  | nil =>
    rw [attach_nil frames]
    exact terms.refl a
  | cons top below =>
    rw [attach_frame frames]
    exact Draft.attach_leads span e top.draft a.log

theorem create_keeps (kit : Kit) (id : TypeId) (args : Arguments) (span : Span) :
    Keeps terms (create kit id args span) (create kit id args span) := by
  unfold create
  exact .bind (making_keeps (construct_keeps _ span id args)) fun element =>
    .liftState (attach_leads span element)

theorem openScope_keeps (kit : Kit) (id : TypeId) (args : Arguments) (span : Span) :
    Keeps terms (openScope kit id args span) (openScope kit id args span) := by
  unfold openScope
  refine .bind (making_keeps (construct_keeps _ span id args)) fun element => ?_
  refine .bind (.liftExcept (kit.catalogue.element_fails id)) fun type => ?_
  exact .of_run (fun a => ⟨a.nextScope, id⟩) (fun a => rfl) fun a => terms.refl a

theorem escalate_fails (kit : Kit) (tag : String) (log : Log) (e : Error)
    (failed : escalate kit tag log = .error e) : e.cause.OfRun := by
  unfold escalate at failed
  split at failed
  · split at failed
    · cases failed
    · cases failed
      trivial
  · cases failed

/-- Either nothing escalates, or the log is refused. -/
theorem escalate_refused (kit : Kit) (tag : String) (log : Log) :
    escalate kit tag log = escalate kit.lenient tag log ∨
      ∃ e, escalate kit tag log = .error e ∧ log.Refuses e := by
  unfold escalate
  split
  · cases found : log.diagnostics with
    | nil => exact .inl rfl
    | cons first rest =>
      refine .inr ⟨_, rfl, tag, first, rest, found, ?_⟩
      rw [Log.diagnostics, List.length_reverse]
  · exact .inl rfl

theorem closed_leads (top : Frame) (below : List Frame) (a : Assembly) :
    terms.leads a (a.closed top below) := by
  have checked : Log.terms.leads a.log (top.draft.check .strict top.span a.log).2 :=
    checkElement_leads .strict top.span top.draft.reported top.draft.element a.log
  have attached := attach_leads top.span (top.draft.check .strict top.span a.log).1.element
    { a with frames := below, log := (top.draft.check .strict top.span a.log).2 }
  exact Log.terms.trans checked attached

theorem close_fails (kit : Kit) (token : ScopeToken) (a : Assembly) (e : Error)
    (failed : ((close kit token).run a).1 = .error e) : e.cause.OfRun := by
  cases frames : a.frames with
  | nil =>
    rw [close_empty kit token frames] at failed
    cases failed
    trivial
  | cons top below =>
    by_cases same : top.scope = token.scope
    · rw [close_top kit token frames same] at failed
      simp only at failed
      split at failed
      · exact escalate_fails kit _ _ e failed
      · cases failed
    · rw [close_other kit token frames same] at failed
      cases failed
      trivial

theorem close_leads (kit : Kit) (token : ScopeToken) (a : Assembly) :
    terms.leads a ((close kit token).run a).2 := by
  cases frames : a.frames with
  | nil =>
    rw [close_empty kit token frames]
    exact terms.refl a
  | cons top below =>
    by_cases same : top.scope = token.scope
    · rw [close_top kit token frames same]
      exact closed_leads top below a
    · rw [close_other kit token frames same]
      exact terms.refl a

/-- Closing the outermost scope is refused or not, but it leaves the same. -/
theorem close_refused (kit : Kit) (token : ScopeToken) (a : Assembly) :
    (close kit token).run a = (close kit.lenient token).run a ∨
      ∃ e, (close kit token).run a = (.error e, ((close kit.lenient token).run a).2) ∧
        ((close kit.lenient token).run a).2.log.Refuses e := by
  cases frames : a.frames with
  | nil =>
    rw [close_empty kit token frames, close_empty kit.lenient token frames]
    exact .inl rfl
  | cons top below =>
    by_cases same : top.scope = token.scope
    · rw [close_top kit token frames same, close_top kit.lenient token frames same]
      cases below.isEmpty with
      | false => exact .inl rfl
      | true =>
        rcases escalate_refused kit (top.draft.check .strict top.span a.log).1.element.tag
          (a.closed top below).log with passed | ⟨e, failed, refuses⟩
        · exact .inl (congrArg (·, a.closed top below) passed)
        · exact .inr ⟨e, congrArg (·, a.closed top below) failed, refuses⟩
    · rw [close_other kit token frames same, close_other kit.lenient token frames same]
      exact .inl rfl

theorem close_lenient (kit : Kit) (token : ScopeToken) (a : Assembly) :
    ((close kit token).run a).2 = ((close kit.lenient token).run a).2 := by
  rcases close_refused kit token a with same | ⟨e, ended, -⟩
  · rw [same]
  · rw [ended]

theorem settleRoot_leads (root : Element) (log : Log) :
    Log.terms.leads log (settleRoot root log).2 := by
  unfold settleRoot
  split
  · exact Log.terms.refl log
  · exact checkElement_leads .strict .nowhere [] root log

theorem finish_fails (kit : Kit) (a : Assembly) (e : Error)
    (failed : ((finish kit).run a).1 = .error e) : e.cause.OfRun := by
  cases frames : a.frames with
  | cons top below =>
    rw [finish_unclosed kit frames] at failed
    cases failed
    trivial
  | nil =>
    cases made : a.root with
    | none =>
      rw [finish_rootless kit frames made] at failed
      cases failed
      trivial
    | some root =>
      rw [finish_root frames made] at failed
      cases outcome : escalate kit (settleRoot root a.log).1.tag (settleRoot root a.log).2 with
      | ok _ =>
        rw [outcome] at failed
        cases failed
      | error e' =>
        rw [outcome] at failed
        cases failed
        exact escalate_fails kit _ _ e outcome

theorem finish_leads (kit : Kit) (a : Assembly) : terms.leads a ((finish kit).run a).2 := by
  cases frames : a.frames with
  | cons top below =>
    rw [finish_unclosed kit frames]
    exact terms.refl a
  | nil =>
    cases made : a.root with
    | none =>
      rw [finish_rootless kit frames made]
      exact terms.refl a
    | some root =>
      rw [finish_root frames made]
      exact settleRoot_leads root a.log

/-- The finished document is refused or not, but it was settled as well. -/
theorem finish_refused (kit : Kit) (a : Assembly) :
    (finish kit).run a = (finish kit.lenient).run a ∨
      ∃ e, (finish kit).run a = (.error e, ((finish kit.lenient).run a).2) ∧
        ((finish kit.lenient).run a).2.log.Refuses e := by
  cases frames : a.frames with
  | cons top below =>
    exact .inl ((finish_unclosed kit frames).trans (finish_unclosed kit.lenient frames).symm)
  | nil =>
    cases made : a.root with
    | none =>
      exact .inl ((finish_rootless kit frames made).trans (finish_rootless _ frames made).symm)
    | some root =>
      have settled (kit : Kit) := @finish_root kit a root frames made
      rw [settled kit, settled kit.lenient]
      rcases escalate_refused kit (settleRoot root a.log).1.tag (settleRoot root a.log).2
        with passed | ⟨e, failed, refuses⟩
      · rw [passed]
        exact .inl rfl
      · rw [failed]
        exact .inr ⟨e, rfl, refuses⟩

end Assembly

namespace Run

open Script (Stmt)

variable {kit : Kit}

/-- Work of a run keeps to the terms of sessions. -/
abbrev RunsBy (kit : Kit) (work twin : Running α) : Prop :=
  Keeps (Session.terms kit) work twin

/-- A step that leaves what its lenient twin leaves, but may refuse that. -/
theorem assembling_keeps {terms : Terms Session} {step twin : Step α}
    (fails : ∀ a e, (step.run a).1 = .error e → terms.allows e)
    (leads : ∀ s, terms.leads s { s with assembly := (twin.run s.assembly).2 })
    (refused : ∀ a, step.run a = twin.run a ∨
      ∃ e, step.run a = (.error e, (twin.run a).2) ∧ (twin.run a).2.log.Refuses e)
    (refuses : ∀ s e, s.assembly.log.Refuses e → terms.refuses s e) :
    Keeps terms (assembling step) (assembling twin) := by
  have run (step : Step α) (s : Session) : (assembling step).run s =
      ((step.run s.assembly).1, { s with assembly := (step.run s.assembly).2 }) := rfl
  refine ⟨fun s => fails s.assembly, fun s => ?_, leads, fun s => ?_⟩
  · rw [run]
    rcases refused s.assembly with same | ⟨e, ended, -⟩
    · rw [same]
      exact leads s
    · rw [ended]
      exact leads s
  · rw [run, run]
    rcases refused s.assembly with same | ⟨e, ended, told⟩
    · rw [same]
      exact .inl rfl
    · rw [ended]
      exact .inr ⟨e, _, rfl, refuses _ e told, terms.refl _⟩

/-- A call that is the same whether or not violations are errors. -/
theorem assemblingAt_keeps {span : Span} {step : Step α} (keeps : Keeps Assembly.terms step step)
    (called : ∀ a, ∃ calls, (step.run a).2 = a.runAll kit calls) :
    RunsBy kit (assemblingAt span step) (assemblingAt span step) where
  allows s e failed := by
    have blamed : (step.run s.assembly).1.mapError (·.orAt span) = .error e := failed
    cases h : (step.run s.assembly).1 with
    | ok a =>
      rw [h] at blamed
      cases blamed
    | error e' =>
      rw [h] at blamed
      cases blamed
      show (e'.orAt span).cause.OfRun
      rw [Error.cause_orAt]
      exact keeps.allows s.assembly e' h
  leads s := ⟨keeps.leads s.assembly, called s.assembly⟩
  twinLeads s := ⟨keeps.leads s.assembly, called s.assembly⟩
  refused _ := .inl rfl

theorem naming_keeps {work : Running α} {result : Bindings → Except Error α}
    {next : Bindings → Bindings} (fits : ∀ b e, result b = .error e → e.cause.OfRun)
    (runs : ∀ s, work.run s = (result s.bindings, { s with bindings := next s.bindings })) :
    RunsBy kit work work where
  allows s e failed := by
    rw [runs] at failed
    exact fits s.bindings e failed
  leads s := by
    rw [runs]
    exact (Session.terms kit).refl s
  twinLeads s := by
    rw [runs]
    exact (Session.terms kit).refl s
  refused _ := .inl rfl

theorem create_keeps (id : TypeId) (args : Arguments) (span : Span) :
    RunsBy kit (assemblingAt span (Assembly.create kit id args span))
      (assemblingAt span (Assembly.create kit id args span)) :=
  assemblingAt_keeps (Assembly.create_keeps kit id args span)
    fun _ => ⟨[.create id args span], rfl⟩

theorem openScope_keeps (id : TypeId) (args : Arguments) (span blamed : Span) :
    RunsBy kit (assemblingAt blamed (Assembly.openScope kit id args span))
      (assemblingAt blamed (Assembly.openScope kit id args span)) :=
  assemblingAt_keeps (Assembly.openScope_keeps kit id args span)
    fun a => ⟨[.openScope id args span], (Call.run_openScope kit a id args span).symm⟩

theorem close_keeps (token : ScopeToken) :
    RunsBy kit (assembling (Assembly.close kit token))
      (assembling (Assembly.close kit.lenient token)) := by
  refine assembling_keeps (Assembly.close_fails kit token) (fun s => ?_)
    (Assembly.close_refused kit token) fun _ _ told => told
  have left : ((Assembly.close kit.lenient token).run s.assembly).2 =
      s.assembly.runAll kit [.close token] :=
    (Assembly.close_lenient kit token s.assembly).symm
  exact ⟨Assembly.close_leads kit.lenient token s.assembly, [.close token], left⟩

/-- Each step of a run keeps to the terms of sessions, and so does the run of statements. -/
theorem Composed.keeps {work twin : Running α} (composed : Composed kit work twin) :
    RunsBy kit work twin := by
  induction composed with
  | pure a => exact .pure a
  | throw fits => exact .throw fits
  | bind _ _ first rest => exact .bind first rest
  | naming result next fits runs => exact naming_keeps fits runs
  | create id args span => exact create_keeps id args span
  | openScope id args span blamed => exact openScope_keeps id args span blamed
  | close token => exact close_keeps token

theorem executeAll_keeps (kit : Kit) (body : List Stmt) :
    RunsBy kit (executeAll kit body) (executeAll kit.lenient body) :=
  (executeAll_composed kit body).keeps

/-! ### Whole scripts -/

/-- What comes after the statements of a script. -/
def ending (kit : Kit) : Running Output := do
  let (document, diagnostics) ← assembling (Assembly.finish kit)
  return ⟨document, diagnostics⟩

theorem ending_run (kit : Kit) (s : Session) :
    (ending kit).run s =
      (((Assembly.finish kit).run s.assembly).1.map fun done => (⟨done.1, done.2⟩ : Output),
        { s with assembly := ((Assembly.finish kit).run s.assembly).2 }) := by
  have done : (assembling (Assembly.finish kit)).run s =
      (((Assembly.finish kit).run s.assembly).1,
        { s with assembly := ((Assembly.finish kit).run s.assembly).2 }) := rfl
  unfold ending
  rw [run_bind, done]
  cases ((Assembly.finish kit).run s.assembly).1 <;> rfl

theorem whole_eq (kit : Kit) (m : Script.Module) :
    whole kit m = executeAll kit m.body >>= fun _ => ending kit :=
  rfl

/-- A run that succeeds is a list of calls, and then the document is finished. -/
theorem whole_calls {kit : Kit} {m : Script.Module} {s s' : Session} {o : Output}
    (ran : (whole kit m).run s = (.ok o, s')) :
    ∃ calls, (Assembly.finish kit).run (s.assembly.runAll kit calls) =
      (.ok (o.document, o.diagnostics), s'.assembly) := by
  rw [whole_eq, run_bind] at ran
  cases executed : (executeAll kit m.body).run s with
  | mk result t =>
    rw [executed] at ran
    cases result with
    | error e => cases ran
    | ok _ =>
      have leads := (executeAll_keeps kit m.body).leads s
      rw [executed] at leads
      obtain ⟨-, calls, same⟩ := leads
      refine ⟨calls, ?_⟩
      rw [← same]
      simp only [ending_run] at ran
      cases finished : (Assembly.finish kit).run t.assembly with
      | mk result a =>
        rw [finished] at ran
        cases result with
        | error e => cases ran
        | ok done =>
          cases ran
          rfl

theorem whole_keeps (kit : Kit) (m : Script.Module) :
    Keeps Session.logTerms (whole kit m) (whole kit.lenient m) := by
  have executed : Keeps Session.logTerms (executeAll kit m.body) (executeAll kit.lenient m.body) :=
    (executeAll_keeps kit m.body).weaken (fun _ h => h) (fun _ _ h => h.1) fun _ _ h => h
  refine executed.bind fun _ => .bind (assembling_keeps (Assembly.finish_fails kit) (fun s => ?_)
    (Assembly.finish_refused kit) fun _ _ told => told) fun done => .pure _
  exact Assembly.finish_leads kit.lenient s.assembly

/-- Running a script fails for a cause of runs only: nothing is refused any more. -/
theorem whole_fails (kit : Kit) (m : Script.Module) (s : Session) (e : Error)
    (failed : ((whole kit m).run s).1 = .error e) : e.cause.OfRun :=
  (whole_keeps kit m).allows s e failed

/-- A script does what it does with lenient validation, unless it is refused on the way. -/
theorem whole_refused (kit : Kit) (m : Script.Module) (s : Session) :
    (whole kit m).run s = (whole kit.lenient m).run s ∨
      ∃ e t, (whole kit m).run s = (.error e, t) ∧ t.assembly.log.Refuses e ∧
        t.assembly.log.found <:+ ((whole kit.lenient m).run s).2.assembly.log.found :=
  (whole_keeps kit m).refused s

/-- If nothing was found it makes no difference whether violations are errors. -/
theorem whole_quiet {kit : Kit} (strict : Bool) {m : Script.Module} {s s' : Session} {o : Output}
    (ran : (whole kit m).run s = (.ok o, s')) (quiet : s'.assembly.log.found = []) :
    (whole { kit with strict } m).run s = (.ok o, s') := by
  have lenient : (whole kit.lenient m).run s = (.ok o, s') := by
    rcases whole_refused kit m s with same | ⟨e, t, ended, -⟩
    · exact same.symm.trans ran
    · rw [ran] at ended
      cases ended
  have goesOn : (whole { kit with strict } m).run s = (whole kit.lenient m).run s ∨
      ∃ e t, (whole { kit with strict } m).run s = (.error e, t) ∧ t.assembly.log.Refuses e ∧
        t.assembly.log.found <:+ ((whole kit.lenient m).run s).2.assembly.log.found :=
    whole_refused { kit with strict } m s
  rcases goesOn with same | ⟨e, t, -, told, onward⟩
  · exact same.trans lenient
  · rw [lenient, quiet] at onward
    exact (told.found_ne_nil (List.suffix_nil.1 onward)).elim

end Run

end ScoreScript
