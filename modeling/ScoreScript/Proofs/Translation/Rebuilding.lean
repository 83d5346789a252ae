import ScoreScript.Proofs.Value.RoundTrip
import ScoreScript.Proofs.Text.Naming
import ScoreScript.Proofs.Translation.Reproducible

/-!
The script that rebuilds a document, run. Statement by statement it makes the elements of the
document where they belong, so it makes the document again (`translate_rebuilds`).
-/

namespace ScoreScript

open Naming Script Script.Grammar

/-! ### Putting together -/

namespace Assembly

variable {kit : Kit} {id : TypeId} {type : ElementType} {e : Element} {a a' : Assembly}

/-- The element of a call, without its children. -/
def called (e : Element) : Element :=
  { tag := e.tag, attributes := e.attributes, text := e.text }

/-- A call makes its element where we are. -/
theorem create_gains (there : kit.catalogue.get? id = some type) (suits : type.Suits e)
    (named : Nameable e) (fits : a.Fits e.tag) (span : Span) :
    ∃ a', (create kit id e.callArguments span).run a = (.ok (), a') ∧ Gains (called e) a a' :=
  ⟨(attach span (called e) a).2, create_made (run_construct_callArguments there suits named a.log),
    attach_gains (e := called e) fits span⟩

theorem run_openScope_call (there : kit.catalogue.get? id = some type) (suits : type.Suits e)
    (named : Nameable e) (span : Span) :
    (openScope kit id e.callArguments span).run a =
      (.ok ⟨a.nextScope, id⟩,
        { a with frames := ⟨id, ⟨type, called e, []⟩, a.nextScope, span⟩ :: a.frames
                 nextScope := a.nextScope + 1 }) :=
  openScope_made there (run_construct_callArguments there suits named a.log)

/-- The element `e` is the innermost open one and has got these children so far. -/
def Inside (top : Frame) (below : List Frame) (e : Element) (done : List Element)
    (a : Assembly) : Prop :=
  ∃ draft, a.frames = { top with draft } :: below ∧ draft.type = top.draft.type ∧
    draft.element.unmarked = ({ e with children := done } : Element).unmarked

variable {top : Frame} {below : List Frame} {done rest : List Element} {c : Element}

theorem Inside.gains (inside : a.Inside top below e done) (more : Gains c a a') :
    a'.Inside top below e (done ++ [c]) := by
  obtain ⟨draft, frames, type, content⟩ := inside
  rw [Gains, frames] at more
  obtain ⟨draft', frames', type', content'⟩ := more
  refine ⟨draft', frames', type'.trans type, content'.trans ?_⟩
  rw [Element.unmarked_eq_iff] at content ⊢
  obtain ⟨tag, attributes, children, text⟩ := content
  refine ⟨tag, attributes, ?_, text⟩
  rw [Element.addChild, List.map_append, List.map_append, children]

theorem Inside.fits (inside : a.Inside top below e done)
    (order : Element.inOrder top.draft.type.order (done ++ c :: rest) = true) :
    a.Fits c.tag := by
  obtain ⟨draft, frames, type, content⟩ := inside
  intro frame first
  obtain rfl : { top with draft } = frame := by
    rw [frames] at first
    exact Option.some.inj first
  have tags := Element.map_tag_of_unmarked (Element.unmarked_eq_iff.1 content).2.2.1
  rw [Element.inOrder_iff_pairwise, List.append_cons] at order
  have before := (List.pairwise_append.1 order).1
  rw [Draft.Fits, type, tags, ← List.map_singleton (f := Element.tag), ← List.map_append,
    List.pairwise_map]
  exact before

end Assembly

namespace Run

variable {kit : Kit} {s : Session} {known : TypeScope}

/-! ### Calls -/

theorem run_assembling {α : Type} {step : Step α} {a : α} {assembly : Assembly}
    (done : step.run s.assembly = (.ok a, assembly)) :
    (assembling step).run s = (.ok a, { s with assembly }) := by
  change ((step.run s.assembly).1, { s with assembly := (step.run s.assembly).2 }) = _
  rw [done]

theorem run_assemblingAt {α : Type} {span : Span} {step : Step α} {a : α} {assembly : Assembly}
    (done : step.run s.assembly = (.ok a, assembly)) :
    (assemblingAt span step).run s = (.ok a, { s with assembly }) := by
  change (((assembling step).run s).1.mapError fun e => e.orAt span,
    ((assembling step).run s).2) = _
  rw [run_assembling done]
  rfl

theorem evaluateAll_texts {texts : List String} {args : List Expr}
    (h : List.Forall₂ IsText texts args) : evaluateAll kit args = return texts.map .str := by
  induction h with
  | nil => rw [evaluateAll, List.map_nil]
  | cons first _ ih =>
    obtain ⟨span, rfl⟩ := first
    rw [evaluateAll, evaluate, constantValue, pure_bind, ih, pure_bind, List.map_cons]

theorem evaluateNamed_fields {attributes : Assoc String} {keywords : List KeywordArg}
    (h : List.Forall₂ Element.IsField attributes keywords) :
    evaluateNamed kit keywords =
      return attributes.map fun entry => (fieldName entry.1, .str entry.2) := by
  induction h with
  | nil => rw [evaluateNamed, List.map_nil]
  | @cons entry keyword _ _ first _ ih =>
    obtain ⟨name, value, place⟩ := keyword
    obtain ⟨rfl, span, rfl⟩ := first
    rw [evaluateNamed, evaluate, constantValue, pure_bind, ih, pure_bind, List.map_cons]

/-- These types are known, and no other ones. The name of the helper does not count. -/
def Knows (known : TypeScope) (b : Bindings) : Prop :=
  ∀ name ≠ Bindings.helperName, Assoc.get? b name = (known name).map .type

theorem Knows.extend {b : Bindings} (knows : Knows known b) (scope : Assoc TypeId) :
    Knows (known.extend scope) (b.injectAll scope).1 := by
  intro name other
  rw [Bindings.get?_injectAll, knows name other, TypeScope.extend, Option.map_or]

theorem typeName_ne_helperName (tag : String) : typeName tag ≠ Bindings.helperName := by
  intro same
  have plain : isJoint '_' = false := isJoint_typeName tag (by rw [same]; decide)
  cases plain

/-- The statement makes the element where we are, and nothing else happens. -/
def Makes (kit : Kit) (known : TypeScope) (e : Element) (stmt : Stmt) : Prop :=
  ∀ s : Session, Knows known s.bindings → s.assembly.Fits e.tag →
    ∃ assembly, (execute kit stmt).run s = (.ok (), { s with assembly }) ∧
      Assembly.Gains e s.assembly assembly

section

variable {e : Element} {call : Expr} {id : TypeId} {type : ElementType}

theorem run_callee (knows : Knows known s.bindings) (bound : known (typeName e.tag) = some id)
    (place : Span) :
    (evaluate kit (.name (typeName e.tag) .load place)).run s = (.ok (.type id), s) := by
  rw [evaluate]
  exact run_lookUp (by rw [knows _ (typeName_ne_helperName e.tag), bound]; rfl) place

/-- A call by itself makes its element. -/
theorem run_evaluate_call (same : Element.IsCall e call) (named : Nameable e)
    (knows : Knows known s.bindings) (bound : known (typeName e.tag) = some id)
    (there : kit.catalogue.get? id = some type) (suits : type.Suits e)
    (fits : s.assembly.Fits e.tag) :
    ∃ assembly, (evaluate kit call).run s = (.ok (.element type.tag), { s with assembly }) ∧
      Assembly.Gains (Assembly.called e) s.assembly assembly := by
  obtain ⟨place, args, keywords, span, rfl, texts, fields⟩ := same
  obtain ⟨assembly, created, gains⟩ := Assembly.create_gains there suits named fits span
  have found : kit.catalogue.element id = .ok type := by rw [Catalogue.element, there]
  have made : (Run.call kit (.name (typeName e.tag) .load place) span (.type id)
      (return e.callArguments)).run s = (.ok (.element type.tag), { s with assembly }) := by
    rw [Run.call, pure_bind, run_bind_ok (run_assemblingAt created), found]
    rfl
  refine ⟨assembly, ?_, gains⟩
  rw [evaluate, run_bind_ok (run_callee knows bound place), evaluateAll_texts texts,
    evaluateNamed_fields fields, pure_bind, pure_bind]
  exact made

theorem makes_leaf (same : Element.IsCall e call) (alone : e.children = []) (named : Nameable e)
    (bound : known (typeName e.tag) = some id) (there : kit.catalogue.get? id = some type)
    (suits : type.Suits e) (span : Span) : Makes kit known e (.expr call span) := by
  intro s knows fits
  obtain ⟨assembly, ran, gains⟩ := run_evaluate_call same named knows bound there suits fits
  refine ⟨assembly, by rw [execute, run_bind_ok ran]; rfl, gains.congr ?_⟩
  rw [Element.unmarked_eq_iff, alone]
  exact ⟨rfl, rfl, rfl, rfl⟩

/-! ### Blocks -/

/-- What has been opened for the block of an element. -/
def opened (id : TypeId) (type : ElementType) (e : Element) (span : Span) (s : Session) :
    Session :=
  { bindings := (s.bindings.injectAll type.scope).1
    assembly := { s.assembly with
      frames := ⟨id, ⟨type, Assembly.called e, []⟩, s.assembly.nextScope, span⟩ ::
        s.assembly.frames
      nextScope := s.assembly.nextScope + 1 } }

theorem run_openType (there : kit.catalogue.get? id = some type) (suits : type.Suits e)
    (named : Nameable e) (item : WithItem) :
    (openType kit item id e.callArguments).run s =
      (.ok ⟨⟨s.assembly.nextScope, id⟩, (s.bindings.injectAll type.scope).2⟩,
        opened id type e item.context.span s) := by
  have found : kit.catalogue.element id = .ok type := by rw [Catalogue.element, there]
  rw [openType, run_bind_ok (run_assemblingAt
    (Assembly.run_openScope_call there suits named item.context.span)), Assembly.scopeNames, found]
  rfl

theorem run_enter (same : Element.IsCall e call) (named : Nameable e)
    (knows : Knows known s.bindings) (bound : known (typeName e.tag) = some id)
    (there : kit.catalogue.get? id = some type) (suits : type.Suits e) (span : Span) :
    (enter kit ⟨call, none, span⟩).run s =
      (.ok ⟨⟨s.assembly.nextScope, id⟩, (s.bindings.injectAll type.scope).2⟩,
        opened id type e call.span s) := by
  obtain ⟨place, args, keywords, callSpan, rfl, texts, fields⟩ := same
  rw [enter]
  simp only
  rw [run_bind_ok (run_callee knows bound place)]
  simp only
  rw [evaluateAll_texts texts, evaluateNamed_fields fields, pure_bind, pure_bind]
  exact (run_bind_ok (run_openType there suits named _) _).trans rfl

/-- The statements of a block make the children one after the other. -/
theorem run_children {top : Frame} {below : List Frame} {rest : List Element} {body : List Stmt}
    (each : List.Forall₂ (Makes kit known) rest body) :
    ∀ {done : List Element} {s : Session}, s.assembly.Inside top below e done →
      Element.inOrder top.draft.type.order (done ++ rest) = true → Knows known s.bindings →
      ∃ assembly, (executeAll kit body).run s = (.ok (), { s with assembly }) ∧
        assembly.Inside top below e (done ++ rest) := by
  induction each with
  | nil =>
    intro done s inside _ _
    rw [List.append_nil]
    exact ⟨s.assembly, by rw [executeAll]; rfl, inside⟩
  | cons first _ ih =>
    intro done s inside order knows
    obtain ⟨assembly, ran, gains⟩ := first s knows (inside.fits order)
    rw [List.append_cons] at order ⊢
    obtain ⟨assembly', ran', inside'⟩ :=
      ih (s := { s with assembly }) (inside.gains gains) order knows
    exact ⟨assembly', by rw [executeAll, run_bind_ok ran, ran'], inside'⟩

/-- Leaving the block of an element that has got its children adds it to the one around it. -/
theorem run_leave (lenient : kit.strict = false) (scope : Assoc TypeId) {top : Frame}
    {below : List Frame} {b : Bindings} (inside : s.assembly.Inside top below e e.children)
    (fits : Assembly.Fits e.tag { s.assembly with frames := below })
    (bindings : s.bindings = (b.injectAll scope).1) :
    ∃ assembly, (leave kit ⟨⟨top.scope, top.id⟩, (b.injectAll scope).2⟩).run s =
        (.ok (), ⟨b, assembly⟩) ∧
      Assembly.Gains e { s.assembly with frames := below } assembly := by
  obtain ⟨draft, frames, -, content⟩ := inside
  rw [Element.unmarked_eq_iff] at content
  have tag : draft.element.tag = e.tag := content.1
  obtain ⟨assembly, closed, gains⟩ := Assembly.close_gains lenient frames (tag.symm ▸ fits)
  refine ⟨assembly, ?_, gains.congr (Element.unmarked_eq_iff.2 content)⟩
  have restored : s.bindings.ejectAll (b.injectAll scope).2 = b := by
    rw [bindings, Bindings.ejectAll_injectAll]
  rw [leave, run_bind_ok (run_assembling closed)]
  change (Except.ok (), (⟨s.bindings.ejectAll (b.injectAll scope).2, assembly⟩ : Session)) = _
  rw [restored]

theorem makes_block (lenient : kit.strict = false) (same : Element.IsCall e call)
    (named : Nameable e) (bound : known (typeName e.tag) = some id)
    (there : kit.catalogue.get? id = some type) (suits : type.Suits e) {body : List Stmt}
    (each : List.Forall₂ (Makes kit (known.extend type.scope)) e.children body)
    (item span : Span) : Makes kit known e (.withStmt [⟨call, none, item⟩] body span) := by
  intro s knows fits
  have entered := run_enter same named knows bound there suits item
  let top : Frame := ⟨id, ⟨type, Assembly.called e, []⟩, s.assembly.nextScope, call.span⟩
  have nothing : (opened id type e call.span s).assembly.Inside top s.assembly.frames e [] :=
    ⟨top.draft, rfl, rfl, Element.unmarked_eq_iff.2 ⟨rfl, rfl, rfl, rfl⟩⟩
  obtain ⟨built, ran, inside⟩ := run_children each nothing suits.order (knows.extend type.scope)
  obtain ⟨assembly, left, gains⟩ := run_leave lenient type.scope (b := s.bindings)
    (s := ⟨(s.bindings.injectAll type.scope).1, built⟩) inside fits rfl
  refine ⟨assembly, ?_, gains⟩
  have opening : (enterAll kit [] [⟨call, none, item⟩]).run s =
      (.ok [⟨⟨top.scope, top.id⟩, (s.bindings.injectAll type.scope).2⟩],
        opened id type e call.span s) := by
    rw [enterAll, run_bind_ok entered, enterAll]
    rfl
  rw [execute, run_bind_ok opening, run_bind_ok ran]
  exact run_bind_ok left _

end

/-- The statement of an element that can be made again makes it. -/
theorem makes_of_mirrors (lenient : kit.strict = false) {e : Element}
    (reproducible : e.Reproducible kit.catalogue known) :
    ∀ {stmt : Stmt}, e.unmarked.Mirrors stmt → Makes kit known e stmt := by
  induction reproducible with
  | @intro known e id type named capital bound there suits _ ih =>
    intro stmt mirrors
    rw [Element.unmarked_eq] at mirrors
    cases mirrors with
    | @leaf _ call span alone same =>
      exact makes_leaf (e := e) same (List.map_eq_nil_iff.1 alone) named bound there suits span
    | @block _ call body item span inner same children =>
      rw [List.forall₂_map_left_iff] at children
      refine makes_block (e := e) lenient same named bound there suits ?_ item span
      exact ((List.forall₂_and_left _ _).2 ⟨@ih, children⟩).imp fun c s both => both.1 both.2

/-- A script that is one statement which makes an element ends with that element as the root. -/
theorem ofModule_of_makes (lenient : kit.strict = false) {e : Element} {stmt : Stmt}
    (accepted : (Node.stmt stmt).Passes) (makes : Makes kit kit.catalogue.global? e stmt)
    (registry : Registry) :
    ∃ output, (ofModule kit registry ⟨[stmt]⟩).1 = .ok output ∧
      output.document.root.unmarked = e.unmarked := by
  have passed : (Script.Module.mk [stmt]).verdict.check = .ok () := by
    rw [Verdict.check, if_pos (Module.isAccepted_of_passes (by simpa using accepted))]
  obtain ⟨assembly, ran, frames, root, made, same⟩ :=
    makes ⟨.start kit.catalogue, .start registry⟩
      (fun name other => Bindings.get?_start kit.catalogue other)
      (fun frame member => absurd member (Option.not_mem_none frame))
  obtain ⟨document, found, assembly', finished, holds⟩ :=
    Assembly.finish_unmarked lenient frames made
  refine ⟨⟨document, found⟩, ?_, holds.trans same⟩
  have whole_ran : (whole kit ⟨[stmt]⟩).run ⟨.start kit.catalogue, .start registry⟩ =
      (.ok ⟨document, found⟩, ⟨.start kit.catalogue, assembly'⟩) := by
    rw [whole, executeAll, executeAll, bind_assoc, run_bind_ok ran, pure_bind,
      run_bind_ok (run_assembling finished)]
    rfl
  rw [ofModule, passed]
  simp only
  rw [whole_ran]

end Run

/-! ### Documents -/

/-- Translating a document and running the script makes the same document again, whatever the
schema, if the catalogue can make it and validation is lenient. -/
theorem translate_rebuilds {kit : Kit} (lenient : kit.strict = false) (registry : Registry)
    {e : Element} (names : e.Everywhere Markup.WellNamed) (depth : e.depth ≤ 256)
    (reproducible : e.Reproducible kit.catalogue kit.catalogue.global?) :
    ∃ script output, translate e.toXml = .ok script ∧
      (Run.ofText kit .unlimited registry script).1 = .ok output ∧
      output.document.root.same e = true := by
  have keeps : e.Everywhere Element.KeepsText :=
    fun n occurs => (reproducible.everywhere n occurs).elim fun _ h => h.keepsText
  have distinct : e.Everywhere fun e => (e.attributes.map (·.1)).Nodup :=
    fun n occurs => (reproducible.everywhere n occurs).elim fun _ h =>
      Element.distinct_attributes h.named
  have read : Markup.readText e.toXml = .ok e.unmarked := by
    rw [Markup.readText_toXml names depth, Element.reread_eq_unmarked keeps]
  obtain ⟨stmt, parsed, mirrors⟩ := Element.ofText_toScript reproducible.nameable
  obtain ⟨output, ran, same⟩ := Run.ofModule_of_makes lenient
    (Element.passes_of_mirrors mirrors reproducible.capitals)
    (Run.makes_of_mirrors lenient reproducible mirrors) registry
  refine ⟨_, output, by rw [translate, read]; rfl, ?_, Element.same_of_unmarked_eq distinct _ same⟩
  rw [Run.ofText, parsed]
  exact ran

/-- Scores with notes, which are known by name inside scores only. -/
def sampleCatalogue : Catalogue :=
  { types := #[
      { name := "Score", tag := "score", fields := [("version", .attr "version" none)],
        order := ["part", "note"], scope := [("Note", ⟨1⟩)], base := none, isAbstract := false },
      { name := "Note", tag := "note",
        fields := [("content", .text), ("id", .attr "xml:id" (some "xml"))], order := [],
        scope := [], base := none, isAbstract := false }]
    globals := [("Score", ⟨0⟩)], declaration := "", doctypes := [] }

def sampleScore : Element :=
  { tag := "score", attributes := [("version", "4.0")],
    children := [{ tag := "note", attributes := [("xml:id", "'n'")], text := some "A & B" }] }

theorem sampleScore_named : sampleScore.Everywhere Markup.WellNamed := by
  have names : (Markup.IsName "score" ∧ Markup.IsName "version") ∧
      Markup.IsName "note" ∧ Markup.IsName "xml:id" := by
    decide
  rw [Element.everywhere_iff]
  refine ⟨⟨names.1.1, by simpa [sampleScore] using names.1.2, by decide⟩, fun c member => ?_⟩
  obtain rfl := List.mem_singleton.1 member
  rw [Element.everywhere_iff]
  exact ⟨⟨names.2.1, by simpa using names.2.2, by decide⟩, nofun⟩

theorem sampleScore_reproducible :
    sampleScore.Reproducible sampleCatalogue sampleCatalogue.global? := by
  refine .intro ⟨by decide, by decide, by decide, by decide, by decide⟩ (by decide)
    rfl rfl ⟨rfl, fun entry member => ?_, nofun, by decide⟩ fun c member => ?_
  · obtain rfl := List.mem_singleton.1 member
    exact ⟨none, by decide⟩
  · obtain rfl := List.mem_singleton.1 member
    refine .intro ⟨by decide, by decide, by decide, by decide, by decide⟩ (by decide)
      rfl rfl ⟨rfl, fun entry member => ?_, fun text holds => ?_, by decide⟩ nofun
    · obtain rfl := List.mem_singleton.1 member
      exact ⟨some "xml", by decide⟩
    · cases holds
      exact ⟨rfl, by decide, "content", rfl⟩

theorem sampleScore_rebuilt :
    ∃ script output, translate sampleScore.toXml = .ok script ∧
      (Run.ofText ⟨sampleCatalogue, false⟩ .unlimited (.ofSchema none) script).1 = .ok output ∧
      output.document.root.same sampleScore = true :=
  translate_rebuilds rfl (.ofSchema none) sampleScore_named
    (by decide) sampleScore_reproducible

end ScoreScript
