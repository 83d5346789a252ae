import ScoreScript.Proofs.Building.Call
import ScoreScript.Proofs.Run.Composition
import ScoreScript.Proofs.Run.Reporting
import ScoreScript.Proofs.Schema.Lookup

/-!
Runs that share a registry. All that a run does with the registry is to look up the tags of the
elements that it checks, so it is an inquiry. Main statement, `runs_independent`: whatever was run
before, a script ends as it ends with a fresh registry.
-/

namespace ScoreScript

def Log.withRegistry (log : Log) (registry : Registry) : Log :=
  { log with registry }

def Assembly.withRegistry (a : Assembly) (registry : Registry) : Assembly :=
  { a with log := a.log.withRegistry registry }

def Session.withRegistry (s : Session) (registry : Registry) : Session :=
  { s with assembly := s.assembly.withRegistry registry }

variable {α β : Type}

/-! ### Checks -/

theorem report_withRegistry (mode : Mode) (span : Span) (reported : List String) (log : Log)
    (registry : Registry) (found : List Violation) :
    report mode span reported (log.withRegistry registry) found =
      ((report mode span reported log found).1,
        (report mode span reported log found).2.withRegistry registry) := by
  induction found generalizing reported log with
  | nil => rfl
  | cons v rest ih =>
    rw [report, report]
    split
    · exact ih reported log
    · exact ih (v.text :: reported) (log.add ⟨span, mode, v⟩)

/-- What a check comes to, by what a look-up of its tag finds. -/
def checkedBy (mode : Mode) (span : Span) (reported : List String) (e : Element) (log : Log) :
    Option Validator → (Element × List String) × Log
  | none => ((e, reported), log)
  | some v =>
    (((v.inspect mode e).1, (report mode span reported log (v.inspect mode e).2).1),
      (report mode span reported log (v.inspect mode e).2).2)

/-- A check looks up the tag of the element. -/
theorem checkElement_inquires (mode : Mode) (span : Span) (reported : List String) (e : Element) :
    Inquires Log.withRegistry (checkElement mode span reported e) := by
  intro log
  refine ⟨.ask e.tag fun found => .done (checkedBy mode span reported e log found), fun r => ?_⟩
  unfold checkElement
  simp only [Inquiry.run, Log.withRegistry, checkedBy]
  cases (r.lookUp e.tag).1 with
  | none => rfl
  | some v =>
    have told := report_withRegistry mode span reported log (r.lookUp e.tag).2 (v.inspect mode e).2
    simp only [Log.withRegistry] at told
    simp only [told]

namespace Draft

theorem check_inquires (mode : Mode) (span : Span) (d : Draft) :
    Inquires Log.withRegistry (d.check mode span) := fun log =>
  (checkElement_inquires mode span d.reported d.element log).within
    (fun x => ({ d with element := x.1.1, reported := x.1.2 }, x.2)) fun r a log' r' done => by
      change (({ d with
          element := (checkElement mode span d.reported d.element (log.withRegistry r)).1.1
          reported := (checkElement mode span d.reported d.element (log.withRegistry r)).1.2 },
        (checkElement mode span d.reported d.element (log.withRegistry r)).2) : Draft × Log) = _
      rw [done]

theorem attach_inquires (span : Span) (child : Element) (d : Draft) :
    Inquires Log.withRegistry (d.attach span child) :=
  check_inquires .tolerant span _

end Draft

/-- A construction looks up the tags of what gets children. -/
theorem Making.Composed.inquires {work : Making α} (composed : Making.Composed work) :
    Inquires Log.withRegistry work.run := by
  induction composed with
  | pure a => exact .pure a
  | throw fits => exact .throw _
  | bind _ _ first rest => exact .bind first rest
  | attach span child d => exact .liftState (d.attach_inquires span child)

/-! ### Documents -/

namespace Assembly

theorem onLog_inquires {work : StateM Log α} (inquires : Inquires Log.withRegistry work) :
    Inquires withRegistry (onLog work) := fun a =>
  (inquires a.log).within (fun x => (x.1, { a with log := x.2 })) fun r b log' r' done => by
    change (((work (a.log.withRegistry r)).1,
      { a with log := (work (a.log.withRegistry r)).2 }) : α × Assembly) = _
    rw [done]
    rfl

theorem making_inquires {work : Making α} (inquires : Inquires Log.withRegistry work.run) :
    Inquires withRegistry (making work).run :=
  onLog_inquires inquires

theorem attach_inquires (span : Span) (e : Element) : Inquires withRegistry (attach span e) := by
  intro a
  cases frames : a.frames with
  | nil =>
    exact .of_run () { a with root := some e } fun r =>
      attach_nil (a := a.withRegistry r) frames span e
  | cons top below =>
    refine (top.draft.attach_inquires span e a.log).within (fun x =>
      ((), { a with frames := { top with draft := x.1 } :: below, log := x.2 }))
      fun r d log' r' done => ?_
    rw [attach_frame (a := a.withRegistry r) frames]
    simp only [withRegistry, done]

theorem create_inquires (kit : Kit) (id : TypeId) (args : Arguments) (span : Span) :
    Inquires withRegistry (create kit id args span).run :=
  .bind (making_inquires (construct_composed _ span id args).inquires) fun e =>
    .liftState (attach_inquires span e)

theorem openScope_inquires (kit : Kit) (id : TypeId) (args : Arguments) (span : Span) :
    Inquires withRegistry (openScope kit id args span).run := by
  refine .bind (making_inquires (construct_composed _ span id args).inquires) fun e => ?_
  refine .bind (.liftExcept _) fun type a => ?_
  exact .of_run (.ok ⟨a.nextScope, id⟩) { a with
    frames := ⟨id, ⟨type, e, []⟩, a.nextScope, span⟩ :: a.frames
    nextScope := a.nextScope + 1 } fun r => rfl

/-- Closing a scope looks up its tag, and that of the scope around it. -/
theorem closed_inquires (top : Frame) (below : List Frame) :
    Inquires withRegistry
      (fun a => ((top.draft.check .strict top.span a.log).1, closed top below a)) := fun a =>
  (top.draft.check_inquires .strict top.span a.log).andThen
    (fun x => attach_inquires top.span x.1.element { a with frames := below, log := x.2 })
    (fun x y => (x.1, y.2)) fun r x r' y r'' checked attached => by
      change top.draft.check .strict top.span (a.withRegistry r).log = _ at checked
      simp only [closed, checked]
      exact congrArg (fun left : Unit × Assembly => (x.1, left.2)) attached

theorem close_inquires (kit : Kit) (token : ScopeToken) :
    Inquires withRegistry (close kit token).run := by
  intro a
  cases frames : a.frames with
  | nil =>
    exact .of_run (.error (.bare (.usage (.scopeMismatch (typeName kit token.id))))) a fun r =>
      close_empty kit token (a := a.withRegistry r) frames
  | cons top below =>
    by_cases same : top.scope = token.scope
    · refine (closed_inquires top below a).within (fun x =>
        (if below.isEmpty then escalate kit x.1.element.tag x.2.log else .ok (), x.2))
        fun r d a' r' done => ?_
      rw [close_top kit token (a := a.withRegistry r) frames same]
      obtain ⟨drafted, left⟩ := Prod.mk.inj done
      rw [drafted, left]
      rfl
    · exact .of_run (.error (.bare (.usage (.scopeMismatch (typeName kit token.id))))) a fun r =>
        close_other kit token (a := a.withRegistry r) frames same

/-- A root that was never closed is looked up at the end. -/
theorem settleRoot_inquires (root : Element) : Inquires Log.withRegistry (settleRoot root) := by
  intro log
  unfold settleRoot
  split
  · exact .of_run root log fun r => rfl
  · refine (checkElement_inquires .strict .nowhere [] root log).within (fun x => (x.1.1, x.2))
      fun r x log' r' done => ?_
    exact congrArg (fun left : (Element × List String) × Log => (left.1.1, left.2)) done

theorem finish_inquires (kit : Kit) : Inquires withRegistry (finish kit).run := by
  intro a
  cases frames : a.frames with
  | cons top below =>
    exact .of_run _ a fun r => finish_unclosed kit (a := a.withRegistry r) frames
  | nil =>
    cases made : a.root with
    | none => exact .of_run _ a fun r => finish_rootless kit (a := a.withRegistry r) frames made
    | some root =>
      refine (settleRoot_inquires root a.log).within (fun x =>
        ((escalate kit x.1.tag x.2).map fun _ =>
          (⟨kit.catalogue.header x.1.tag, x.1⟩, x.2.diagnostics), { a with log := x.2 }))
        fun r e log' r' done => ?_
      rw [finish_root (a := a.withRegistry r) frames made]
      change settleRoot root (a.withRegistry r).log = _ at done
      rw [done]
      rfl

end Assembly

/-! ### Runs -/

namespace Run

theorem assembling_inquires {step : Step α} (inquires : Inquires Assembly.withRegistry step.run) :
    Inquires Session.withRegistry (assembling step).run := fun s =>
  (inquires s.assembly).within (fun x => (x.1, { s with assembly := x.2 })) fun r b a r' done => by
    change (((step.run (s.assembly.withRegistry r)).1,
      { s with assembly := (step.run (s.assembly.withRegistry r)).2 }) :
        Except Error α × Session) = _
    rw [done]
    rfl

theorem assemblingAt_inquires {step : Step α} (span : Span)
    (inquires : Inquires Assembly.withRegistry step.run) :
    Inquires Session.withRegistry (assemblingAt span step).run := fun s =>
  (assembling_inquires inquires s).within
    (fun x => (x.1.mapError fun e : Error => e.orAt span, x.2)) fun _ _ _ _ done =>
      congrArg (fun left : Except Error α × Session =>
        (left.1.mapError fun e : Error => e.orAt span, left.2)) done

/-- What is executed looks up what the steps on the document do. -/
theorem Composed.inquires {kit : Kit} {work twin : Running α} (composed : Composed kit work twin) :
    Inquires Session.withRegistry work.run := by
  induction composed with
  | pure a => exact .pure a
  | throw fits => exact .throw _
  | bind _ _ first rest => exact .bind first rest
  | naming result next fits runs =>
    exact fun s => .of_run (result s.bindings) { s with bindings := next s.bindings } fun r => runs _
  | create id args span => exact assemblingAt_inquires span (Assembly.create_inquires _ id args span)
  | openScope id args span blamed =>
    exact assemblingAt_inquires blamed (Assembly.openScope_inquires _ id args span)
  | close token => exact assembling_inquires (Assembly.close_inquires _ token)

theorem whole_inquires (kit : Kit) (m : Script.Module) :
    Inquires Session.withRegistry (whole kit m).run := by
  refine .bind (executeAll_composed kit m.body).inquires fun _ => ?_
  exact .bind (assembling_inquires (Assembly.finish_inquires kit)) fun done => .pure _

/-- A module that is refused asks for nothing. -/
theorem ofModule_inquires (kit : Kit) (m : Script.Module) :
    ∃ inquiry : Inquiry (Except Error Output),
      (∀ registry, ofModule kit registry m = inquiry.run registry) ∧
      ∀ e, m.verdict.check = .error e → inquiry = .done (.error e) := by
  cases passed : m.verdict.check with
  | error e =>
    refine ⟨.done (.error e), fun registry => ?_, fun e' failed => by cases failed; rfl⟩
    rw [ofModule, passed]
    rfl
  | ok _ =>
    obtain ⟨inquiry, runs⟩ := whole_inquires kit m ⟨.start kit.catalogue, .start (.ofSchema none)⟩
    refine ⟨inquiry.map Prod.fst, fun registry => ?_, fun e failed => by cases failed⟩
    have ran : (whole kit m).run ⟨.start kit.catalogue, .start registry⟩ =
        ((inquiry.run registry).1.1,
          (inquiry.run registry).1.2.withRegistry (inquiry.run registry).2) := runs registry
    rw [ofModule, passed, Inquiry.run_map]
    simp only [ran]
    rfl

/-- So does a text that cannot be read. -/
theorem ofText_inquires (kit : Kit) (limits : Limits) (text : String) :
    ∃ inquiry : Inquiry (Except Error Output),
      (∀ registry, ofText kit limits registry text = inquiry.run registry) ∧
      ∀ e, (Script.Module.ofText limits text >>= fun m => m.verdict.check) = .error e →
        inquiry = .done (.error e) := by
  cases read : Script.Module.ofText limits text with
  | error e =>
    refine ⟨.done (.error e), fun registry => ?_, fun e' failed => by cases failed; rfl⟩
    rw [ofText, read]
    rfl
  | ok m =>
    obtain ⟨inquiry, runs, refused⟩ := ofModule_inquires kit m
    refine ⟨inquiry, fun registry => ?_, refused⟩
    rw [ofText, read]
    exact runs registry

/-- The registry after scripts were run one after the other. -/
def afterAll (kit : Kit) (limits : Limits) (registry : Registry) (texts : List String) : Registry :=
  texts.foldl (fun registry text => (ofText kit limits registry text).2) registry

/-- All scripts together ask for what each of them asks for. -/
theorem afterAll_eq {kit : Kit} {limits : Limits} {inquiry : String → Inquiry (Except Error Output)}
    (runs : ∀ registry text, ofText kit limits registry text = (inquiry text).run registry)
    (registry : Registry) (texts : List String) :
    afterAll kit limits registry texts =
      registry.recordAll (texts.flatMap fun text => (inquiry text).asked registry.schema) := by
  induction texts generalizing registry with
  | nil => rfl
  | cons text rest ih =>
    have first : (ofText kit limits registry text).2 =
        registry.recordAll ((inquiry text).asked registry.schema) := by
      rw [runs, Inquiry.run_eq]
    rw [List.flatMap_cons, Registry.recordAll_append, ← first]
    have schema : (ofText kit limits registry text).2.schema = registry.schema := by
      rw [first, Registry.schema_recordAll]
    rw [← schema]
    exact ih _

/-- Runs that share a registry are independent. After any look-ups, one finds the validator for a
tag if there is a schema and it declares the tag. A run is an inquiry, and asks for nothing if the
script is refused. So whatever was run before, a script ends as it ends with a fresh registry, and
the registry counts the distinct tags that all scripts up to this one have asked for. -/
theorem runs_independent (kit : Kit) (limits : Limits) (schema : Option Schema) :
    (∀ (tags : List String) (tag : String) (v : Validator),
      (((Registry.ofSchema schema).recordAll tags).lookUp tag).1 = some v ↔
        ∃ s, schema = some s ∧ s.declares tag = true ∧ v = ⟨tag, s⟩) ∧
    (∀ tags : List String,
      ((Registry.ofSchema schema).recordAll tags).size = tags.eraseDups.length) ∧
    ∃ inquiry : String → Inquiry (Except Error Output),
      (∀ registry text, ofText kit limits registry text = (inquiry text).run registry) ∧
      (∀ text e, (Script.Module.ofText limits text >>= fun m => m.verdict.check) = .error e →
        inquiry text = .done (.error e)) ∧
      ∀ before text,
        let registry := afterAll kit limits (.ofSchema schema) before
        (ofText kit limits registry text).1 = (ofText kit limits (.ofSchema schema) text).1 ∧
        (ofText kit limits registry text).2.size =
          ((before ++ [text]).flatMap fun t => (inquiry t).asked schema).eraseDups.length := by
  choose inquiry runs refused using ofText_inquires kit limits
  have runs' (registry : Registry) (text : String) := runs text registry
  refine ⟨fun tags tag v => ?_, Registry.size_recordAll schema, inquiry, runs', refused, ?_⟩
  · rw [Registry.lookUp_eq, Registry.schema_recordAll]
    exact Validator.compile?_eq_some_iff
  · intro before text registry
    have earlier : registry = _ := afterAll_eq runs' (.ofSchema schema) before
    have same : registry.schema = schema := by
      rw [earlier, Registry.schema_recordAll]
      rfl
    constructor
    · rw [runs, runs, Inquiry.run_eq, Inquiry.run_eq, same]
      rfl
    · have next : afterAll kit limits (.ofSchema schema) (before ++ [text]) =
          (ofText kit limits registry text).2 := List.foldl_concat ..
      rw [← next, afterAll_eq runs']
      exact Registry.size_recordAll schema _

/-- Two measures and a text that breaks off ask for one tag, and beats for another. -/
theorem runs_independent_beats :
    ∃ inquiry : String → Inquiry (Except Error Output),
      (∃ e, inquiry "Measure(" = .done (.error e)) ∧
      (["Measure(Beats='3')", "Measure(", "Measure(number='1')", "Beats('4')"].flatMap fun t =>
        (inquiry t).asked (some Beats.schema)).eraseDups.length = 2 := by
  obtain ⟨-, -, inquiry, -, refused, after⟩ :=
    runs_independent Beats.kit .unlimited (some Beats.schema)
  refine ⟨inquiry, ?_, ?_⟩
  · cases read : Script.Module.ofText .unlimited "Measure(" with
    | error e => exact ⟨e, refused _ e (by rw [read]; rfl)⟩
    | ok m =>
      have broken : (Script.Module.ofText .unlimited "Measure(").toOption.isNone = true := by
        decide +kernel
      rw [read] at broken
      cases broken
  · have count := (after ["Measure(Beats='3')", "Measure(", "Measure(number='1')"] "Beats('4')").2
    refine count.symm.trans ?_
    decide +kernel

end Run

end ScoreScript
