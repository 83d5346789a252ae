import ScoreScript.Proofs.Stateful
import ScoreScript.Run.Basic

/-!
What constructions and runs consist of: results, failures, and a few steps on the document or on
what names mean, one after the other. A run is taken beside the same run with lenient validation,
which has the same steps. What holds of each step, and of one piece of work after another if it
holds of both, holds of all constructions and runs.
-/

namespace ScoreScript

variable {α β : Type}

/-- The causes that running a script can have for a failure. -/
def Cause.OfRun : Cause → Prop
  | .usage _ => True
  | .schema _ => True
  | .invalid _ _ _ => True
  | _ => False

/-- The same catalogue, but violations are no errors. -/
def Kit.lenient (kit : Kit) : Kit :=
  { kit with strict := false }

theorem Catalogue.element_fails (c : Catalogue) (id : TypeId) (e : Error)
    (failed : c.element id = .error e) : e.cause.OfRun := by
  unfold Catalogue.element at failed
  split at failed
  · cases failed
  · cases failed
    trivial

/-! ### Construction -/

/-- What the construction of an element consists of. -/
inductive Making.Composed : {α : Type} → Making α → Prop where
  | pure {α : Type} (a : α) : Composed (Pure.pure a : Making α)
  | throw {α : Type} {e : Error} (fits : e.cause.OfRun) :
      Composed (MonadExcept.throw e : Making α)
  | bind {α β : Type} {work : Making α} {next : α → Making β} (first : Composed work)
      (rest : ∀ a, Composed (next a)) : Composed (work >>= next)
  /-- A draft gets a child, and is checked. -/
  | attach (span : Span) (child : Element) (d : Draft) :
      Composed (MonadLift.monadLift (d.attach span child) : Making Draft)

theorem Making.Composed.liftExcept {result : Except Error α}
    (fits : ∀ e, result = .error e → e.cause.OfRun) :
    Making.Composed (MonadLift.monadLift result : Making α) := by
  cases result with
  | ok a => exact .pure a
  | error e => exact .throw (fits e rfl)

namespace Draft

theorem start_fails (c : Catalogue) (span : Span) (id : TypeId) (given : Nat)
    (names : List String) (e : Error) (failed : start c span id given names = .error e) :
    e.cause.OfRun := by
  unfold start at failed
  cases found : c.element id with
  | error e' =>
    rw [found] at failed
    cases failed
    exact c.element_fails id e found
  | ok type =>
    rw [found] at failed
    simp only [Bind.bind, Except.bind] at failed
    split at failed
    · cases failed
      trivial
    · split at failed
      · cases failed
        trivial
      · cases failed

theorem give_composed (span : Span) (name : String) (v : Value) (make : TypeId → Making Element)
    (d : Draft) (made : ∀ slot, Making.Composed (make slot)) :
    Making.Composed (d.give span name v make) := by
  unfold give
  split
  · exact .pure d
  · split
    · exact .throw trivial
    · exact .pure _
    · exact .pure _
    · split
      · exact .throw trivial
      · exact .bind (made _) fun child => .attach span child d

end Draft

theorem plainElement_composed (c : Catalogue) (span : Span) (v : Value) (room : Nat) (id : TypeId) :
    Making.Composed (plainElement c span v room id) := by
  induction room generalizing id with
  | zero => exact .throw trivial
  | succ room ih =>
    unfold plainElement
    refine .bind (.liftExcept (Draft.start_fails c span id 1 [])) fun d => ?_
    split
    · exact .pure _
    · exact .pure _
    · exact .pure _
    · refine .bind (ih _) fun child => ?_
      exact .bind (.attach span child d) fun d => .pure _

mutual

theorem toElement_composed (c : Catalogue) (span : Span) (id : TypeId) :
    (v : Value) → Making.Composed (Value.toElement c span id v)
  | .bundle ⟨positional, named⟩ => by
    unfold Value.toElement
    refine .bind (.liftExcept (Draft.start_fails c span id _ _)) fun d => ?_
    refine .bind (giveInTurn_composed c span positional _ d) fun d => ?_
    exact .bind (giveNamed_composed c span named d) fun d => .pure _
  | .tuple items => by
    unfold Value.toElement
    refine .bind (.liftExcept (Draft.start_fails c span id _ _)) fun d => ?_
    exact .bind (giveInTurn_composed c span items _ d) fun d => .pure _
  | .map entries => by
    unfold Value.toElement
    refine .bind (.liftExcept (Draft.start_fails c span id _ _)) fun d => ?_
    exact .bind (giveNamed_composed c span entries d) fun d => .pure _
  | .none | .bool _ | .int _ | .float _ | .str _ | .bytes _ | .element _ | .type _ | .helper => by
    unfold Value.toElement
    exact plainElement_composed c span _ _ id

theorem giveInTurn_composed (c : Catalogue) (span : Span) :
    (values : List Value) → (fields : List (String × Field)) → (d : Draft) →
      Making.Composed (giveInTurn c span values fields d)
  | v :: rest, (name, field) :: fields, d => by
    unfold giveInTurn
    refine .bind (Draft.give_composed span name v _ d fun slot =>
      toElement_composed c span slot v) ?_
    exact fun d => giveInTurn_composed c span rest fields d
  | [], _, d => by
    unfold giveInTurn
    exact .pure d
  | _ :: _, [], d => by
    unfold giveInTurn
    exact .pure d

theorem giveNamed_composed (c : Catalogue) (span : Span) :
    (entries : List (String × Value)) → (d : Draft) → Making.Composed (giveNamed c span entries d)
  | (name, v) :: rest, d => by
    unfold giveNamed
    refine .bind (Draft.give_composed span name v _ d fun slot =>
      toElement_composed c span slot v) ?_
    exact fun d => giveNamed_composed c span rest d
  | [], d => by
    unfold giveNamed
    exact .pure d

end

theorem construct_composed (c : Catalogue) (span : Span) (id : TypeId) (args : Arguments) :
    Making.Composed (construct c span id args) :=
  toElement_composed c span id (.bundle args)

/-! ### Runs -/

namespace Run

open Script (Expr KeywordArg Stmt WithItem)

/-- What the run of statements consists of, beside its lenient twin. -/
inductive Composed (kit : Kit) : {α : Type} → Running α → Running α → Prop where
  | pure {α : Type} (a : α) : Composed kit (Pure.pure a : Running α) (Pure.pure a)
  | throw {α : Type} {e : Error} (fits : e.cause.OfRun) :
      Composed kit (MonadExcept.throw e : Running α) (MonadExcept.throw e)
  | bind {α β : Type} {work twin : Running α} {next next' : α → Running β}
      (first : Composed kit work twin) (rest : ∀ a, Composed kit (next a) (next' a)) :
      Composed kit (work >>= next) (twin >>= next')
  /-- Work on what names mean, which depends on nothing else. -/
  | naming {α : Type} {work : Running α} (result : Bindings → Except Error α)
      (next : Bindings → Bindings) (fits : ∀ b e, result b = .error e → e.cause.OfRun)
      (runs : ∀ s, work.run s = (result s.bindings, { s with bindings := next s.bindings })) :
      Composed kit work work
  | create (id : TypeId) (args : Arguments) (span : Span) :
      Composed kit (assemblingAt span (Assembly.create kit id args span))
        (assemblingAt span (Assembly.create kit.lenient id args span))
  | openScope (id : TypeId) (args : Arguments) (span blamed : Span) :
      Composed kit (assemblingAt blamed (Assembly.openScope kit id args span))
        (assemblingAt blamed (Assembly.openScope kit.lenient id args span))
  | close (token : ScopeToken) :
      Composed kit (assembling (Assembly.close kit token))
        (assembling (Assembly.close kit.lenient token))

variable {kit : Kit}

theorem Composed.liftExcept {result : Except Error α}
    (fits : ∀ e, result = .error e → e.cause.OfRun) :
    Composed kit (MonadLift.monadLift result : Running α) (MonadLift.monadLift result) := by
  cases result with
  | ok a => exact .pure a
  | error e => exact .throw (fits e rfl)

/-- Work on what names mean that does not fail. -/
theorem Composed.naming_ok {work : Running α} (value : Bindings → α) (next : Bindings → Bindings)
    (runs : ∀ s, work.run s = (.ok (value s.bindings), { s with bindings := next s.bindings })) :
    Composed kit work work :=
  .naming (fun b => .ok (value b)) next (fun _ _ failed => nomatch failed) runs

theorem unsupported_composed (what : String) (span : Span) :
    Composed kit (unsupported what span : Running α) (unsupported what span) :=
  .throw trivial

theorem constantValue_composed (span : Span) (value : Script.Constant) :
    Composed kit (constantValue span value) (constantValue span value) := by
  cases value with
  | ellipsis => exact unsupported_composed "..." span
  | _ => exact .pure _

theorem negate_composed (span : Span) (v : Value) :
    Composed kit (negate span v) (negate span v) := by
  unfold negate
  split
  · split
    · exact .throw trivial
    · exact .pure _
  · exact .pure _
  · exact .pure _
  · exact .throw trivial

theorem call_composed (kit : Kit) (callee : Expr) (span : Span) (f : Value)
    {args args' : Running Arguments} (keeps : Composed kit args args') :
    Composed kit (call kit callee span f args) (call kit.lenient callee span f args') := by
  unfold call
  split
  · rename_i id
    refine .bind keeps fun args => ?_
    refine .bind (.create id args span) fun _ => ?_
    exact .bind (.liftExcept (kit.catalogue.element_fails _)) fun type => .pure _
  · exact .bind keeps fun args => .pure _
  · exact .throw trivial

theorem lookUp_composed (id : String) (span : Span) :
    Composed kit (lookUp id span) (lookUp id span) := by
  refine .naming (fun b => (Assoc.get? b id).elim (.error ⟨.usage (.unknownName id), span⟩) .ok)
    (fun b => b) (fun b e failed => ?_) fun s => ?_
  · cases found : Assoc.get? b id with
    | none =>
      rw [found] at failed
      cases failed
      trivial
    | some v =>
      rw [found] at failed
      cases failed
  · unfold lookUp
    rw [run_bind_ok (run_get s)]
    cases Assoc.get? s.bindings id <;> rfl

mutual

theorem evaluate_composed (kit : Kit) :
    (e : Expr) → Composed kit (evaluate kit e) (evaluate kit.lenient e)
  | .constant value span => by
    unfold evaluate
    exact constantValue_composed span value
  | .name id use span => by
    unfold evaluate
    exact lookUp_composed id span
  | .tuple items use span => by
    unfold evaluate
    exact .bind (evaluateAll_composed kit items) fun values => .pure _
  | .unary op operand span => by
    cases op with
    | minus =>
      unfold evaluate
      exact .bind (evaluate_composed kit operand) fun v => negate_composed span v
    | _ =>
      unfold evaluate
      exact unsupported_composed _ _
  | .call callee args keywords span => by
    unfold evaluate
    refine .bind (evaluate_composed kit callee) fun f => call_composed kit callee span f ?_
    refine .bind (evaluateAll_composed kit args) fun positional => ?_
    exact .bind (evaluateNamed_composed kit keywords) fun named => .pure _
  | .list .. | .set .. | .dict .. | .member .. | .subscript .. | .slice .. | .starred ..
  | .binary .. | .boolean .. | .compare .. | .lambda .. | .conditional .. | .named ..
  | .listComp .. | .setComp .. | .dictComp .. | .generator .. | .joined .. | .formatted ..
  | .await .. | .yield .. | .yieldFrom .. => by
    unfold evaluate
    exact unsupported_composed _ _

theorem evaluateAll_composed (kit : Kit) :
    (items : List Expr) → Composed kit (evaluateAll kit items) (evaluateAll kit.lenient items)
  | [] => by
    unfold evaluateAll
    exact .pure _
  | e :: rest => by
    unfold evaluateAll
    refine .bind (evaluate_composed kit e) fun v => ?_
    exact .bind (evaluateAll_composed kit rest) fun values => .pure _

theorem evaluateNamed_composed (kit : Kit) :
    (keywords : List KeywordArg) →
      Composed kit (evaluateNamed kit keywords) (evaluateNamed kit.lenient keywords)
  | [] => by
    unfold evaluateNamed
    exact .pure _
  | .mk none value span :: rest => by
    unfold evaluateNamed
    exact unsupported_composed "** arguments" span
  | .mk (some name) value span :: rest => by
    unfold evaluateNamed
    refine .bind (evaluate_composed kit value) fun v => ?_
    exact .bind (evaluateNamed_composed kit rest) fun values => .pure _

end

theorem openType_composed (kit : Kit) (item : WithItem) (id : TypeId)
    (args : Arguments) :
    Composed kit (openType kit item id args) (openType kit.lenient item id args) := by
  unfold openType
  refine .bind (.openScope id args _ _) fun token => ?_
  refine .bind (.liftExcept ?_) fun nested => ?_
  · intro e failed
    unfold Assembly.scopeNames at failed
    cases found : kit.catalogue.element token.id with
    | ok type =>
      rw [found] at failed
      cases failed
    | error e' =>
      rw [found] at failed
      cases failed
      exact kit.catalogue.element_fails token.id e found
  · exact .naming_ok (fun b => ⟨token, (b.injectAll nested).2⟩) (fun b => (b.injectAll nested).1)
      fun s => rfl

theorem storeTarget_composed (kit : Kit) (item : WithItem) (id : TypeId) :
    Composed kit (storeTarget kit item id) (storeTarget kit.lenient item id) := by
  unfold storeTarget
  split
  · exact .pure _
  · rename_i name _ _ _
    refine .bind (.liftExcept (kit.catalogue.element_fails id)) fun type => ?_
    exact .naming_ok (fun _ => ()) (Assoc.put name (.element type.tag)) fun s => rfl
  · exact unsupported_composed "with target" item.span

theorem enter_composed (kit : Kit) (item : WithItem) :
    Composed kit (enter kit item) (enter kit.lenient item) := by
  unfold enter
  split
  · refine .bind (evaluate_composed kit _) fun f => ?_
    split
    · refine .bind (evaluateAll_composed kit _) fun positional => ?_
      refine .bind (evaluateNamed_composed kit _) fun named => ?_
      refine .bind (openType_composed kit item _ _) fun opened => ?_
      exact .bind (storeTarget_composed kit item _) fun _ => .pure _
    · exact .throw trivial
  · exact .bind (evaluate_composed kit _) fun found => .throw trivial

theorem enterAll_composed (kit : Kit) (opened : List OpenItem)
    (items : List WithItem) :
    Composed kit (enterAll kit opened items) (enterAll kit.lenient opened items) := by
  induction items generalizing opened with
  | nil => exact .pure _
  | cons item rest ih => exact .bind (enter_composed kit item) fun o => ih (o :: opened)

theorem leave_composed (kit : Kit) (item : OpenItem) :
    Composed kit (leave kit item) (leave kit.lenient item) := by
  unfold leave
  exact .bind (.close item.token) fun _ =>
    .naming_ok (fun _ => ()) (·.ejectAll item.names) fun s => rfl

theorem leaveAll_composed (kit : Kit) (opened : List OpenItem) :
    Composed kit (opened.forM (leave kit)) (opened.forM (leave kit.lenient)) := by
  induction opened with
  | nil => exact .pure _
  | cons item rest ih => exact .bind (leave_composed kit item) fun _ => ih

mutual

theorem execute_composed (kit : Kit) :
    (s : Stmt) → Composed kit (execute kit s) (execute kit.lenient s)
  | .expr value span => by
    unfold execute
    exact .bind (evaluate_composed kit value) fun _ => .pure _
  | .withStmt items body span => by
    unfold execute
    refine .bind (enterAll_composed kit [] items) fun opened => ?_
    exact .bind (executeAll_composed kit body) fun _ => leaveAll_composed kit opened
  | .pass span => by
    unfold execute
    exact .pure _
  | .assign .. | .annAssign .. | .augAssign .. | .breakStmt .. | .continueStmt ..
  | .returnStmt .. | .delete .. | .globalStmt .. | .nonlocalStmt .. | .assertStmt ..
  | .raise .. | .importStmt .. | .importFrom .. | .ifStmt .. | .whileStmt .. | .forStmt ..
  | .functionDef .. | .classDef .. | .tryStmt .. => by
    unfold execute
    exact unsupported_composed _ _

theorem executeAll_composed (kit : Kit) :
    (body : List Stmt) → Composed kit (executeAll kit body) (executeAll kit.lenient body)
  | [] => by
    unfold executeAll
    exact .pure _
  | s :: rest => by
    unfold executeAll
    exact .bind (execute_composed kit s) fun _ => executeAll_composed kit rest

end

end Run

end ScoreScript
