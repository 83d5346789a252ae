import ScoreScript.Proofs.Building.Blame
import ScoreScript.Proofs.Parallel.Causes
import ScoreScript.Proofs.Placing.Statement
import ScoreScript.Proofs.Run.Balance

/-!
Where the errors of runs point. Each piece of work on a script blames a node of the piece that it
works on (`execute_points`); and everything in a script that is run stands in its text. So an error
that a script causes by the way it uses constructors has a place in the text. Main statements:
`execute_points`, `usage_located`.
-/

namespace ScoreScript

namespace Run

open Script (Expr KeywordArg Node Stmt Within WithItem)

/-- The spans of everything in the node are among these places. -/
def StandsIn (places : Span → Prop) (n : Node) : Prop :=
  ∀ p, Within n p → places p.span

variable {kit : Kit} {places : Span → Prop} {n p : Node}

theorem StandsIn.self (h : StandsIn places n) : places n.span :=
  h n (.self n)

theorem StandsIn.part (h : StandsIn places n) (direct : p ∈ n.parts) : StandsIn places p :=
  fun q below => h q (.part direct below)

/-- A call consists of what is called, and of what stands in the brackets. -/
theorem StandsIn.called {callee : Expr} {args : List Expr} {keywords : List KeywordArg}
    {span : Span} (h : StandsIn places (.expr (.call callee args keywords span))) :
    StandsIn places (.expr callee) ∧ (∀ e ∈ args, StandsIn places (.expr e)) ∧
      ∀ k ∈ keywords, StandsIn places (.keyword k) := by
  refine ⟨h.part List.mem_cons_self, fun e member => ?_, fun k member => ?_⟩
  · exact h.part (List.mem_cons_of_mem _ (List.mem_append_left _ (List.mem_map_of_mem member)))
  · exact h.part (List.mem_cons_of_mem _ (List.mem_append_right _ (List.mem_map_of_mem member)))

/-! ### Steps on the document -/

theorem assembling_points {α : Type} {step : Step α} (h : Points places step) :
    Points places (assembling step) :=
  h.zoom Session.assembly (fun s assembly => { s with assembly }) fun _ => rfl

/-- What has one place to blame is blamed on it, or on another. -/
theorem assemblingAt_points {α : Type} {step : Step α} {span blamed : Span}
    (h : Points (· = blamed) step) (place : places blamed) (other : places span) :
    Points places (assemblingAt span step) := by
  have placed : Points places step := h.weaken fun s same => same ▸ place
  exact assemblingAt_steady (assembling_points placed) fun e points => points.orAt other

/-! ### Expressions -/

theorem unsupported_points {α : Type} {what : String} {span : Span} (place : places span) :
    Points places (unsupported what span : Running α) :=
  .throw (.of_span place)

theorem constantValue_points {span : Span} (place : places span) (value : Script.Constant) :
    Points places (constantValue span value) := by
  cases value with
  | ellipsis => exact unsupported_points place
  | _ => exact .pure

theorem negate_points {span : Span} (place : places span) (v : Value) :
    Points places (negate span v) := by
  unfold negate
  split
  · split
    · exact .throw (.of_span place)
    · exact .pure
  · exact .pure
  · exact .pure
  · exact .throw (.of_span place)

theorem lookUp_points {span : Span} (place : places span) (id : String) :
    Points places (lookUp id span) := by
  refine .bind .get fun s => ?_
  split
  · exact .pure
  · exact .throw (.of_span place)

theorem call_points {span : Span} (place : places span) (callee : Expr) (f : Value)
    {args : Running Arguments} (given : Points places args) :
    Points places (call kit callee span f args) := by
  unfold call
  split
  · refine .bind given fun args => ?_
    refine .bind (assemblingAt_points (Assembly.create_points _ args) place place) fun _ => ?_
    exact .bind (.liftExcept fun _ => .of_element) fun _ => .pure
  · exact .bind given fun _ => .pure
  · exact .throw (.of_span place)

mutual

theorem evaluate_points : (e : Expr) → StandsIn places (.expr e) → Points places (evaluate kit e)
  | .constant value span, h => by
    unfold evaluate
    exact constantValue_points h.self value
  | .name id use span, h => by
    unfold evaluate
    exact lookUp_points h.self id
  | .tuple items use span, h => by
    unfold evaluate
    have inside : ∀ e ∈ items, StandsIn places (.expr e) := fun e member =>
      h.part (List.mem_map_of_mem member)
    exact .bind (evaluateAll_points items inside) fun _ => .pure
  | .unary op operand span, h => by
    cases op with
    | minus =>
      unfold evaluate
      have inside : StandsIn places (.expr operand) := h.part List.mem_cons_self
      exact .bind (evaluate_points operand inside) fun v => negate_points h.self v
    | _ =>
      unfold evaluate
      exact unsupported_points h.self
  | .call callee args keywords span, h => by
    unfold evaluate
    obtain ⟨first, positional, named⟩ := h.called
    refine .bind (evaluate_points callee first) fun f => call_points h.self callee f ?_
    exact .bind (evaluateAll_points args positional) fun _ =>
      .bind (evaluateNamed_points keywords named) fun _ => .pure
  | .list .., h | .set .., h | .dict .., h | .member .., h | .subscript .., h | .slice .., h
  | .starred .., h | .binary .., h | .boolean .., h | .compare .., h | .lambda .., h
  | .conditional .., h | .named .., h | .listComp .., h | .setComp .., h | .dictComp .., h
  | .generator .., h | .joined .., h | .formatted .., h | .await .., h | .yield .., h
  | .yieldFrom .., h => by
    unfold evaluate
    exact unsupported_points h.self

theorem evaluateAll_points : (items : List Expr) → (∀ e ∈ items, StandsIn places (.expr e)) →
    Points places (evaluateAll kit items)
  | [], _ => by
    unfold evaluateAll
    exact .pure
  | e :: rest, h => by
    unfold evaluateAll
    obtain ⟨first, later⟩ := List.forall_mem_cons.1 h
    exact .bind (evaluate_points e first) fun _ => .bind (evaluateAll_points rest later) fun _ =>
      .pure

theorem evaluateNamed_points : (keywords : List KeywordArg) →
    (∀ k ∈ keywords, StandsIn places (.keyword k)) → Points places (evaluateNamed kit keywords)
  | [], _ => by
    unfold evaluateNamed
    exact .pure
  | .mk none value span :: _, h => by
    unfold evaluateNamed
    exact unsupported_points (h _ List.mem_cons_self).self
  | .mk (some name) value span :: rest, h => by
    unfold evaluateNamed
    obtain ⟨first, later⟩ := List.forall_mem_cons.1 h
    have inside : StandsIn places (.expr value) := first.part List.mem_cons_self
    exact .bind (evaluate_points value inside) fun _ =>
      .bind (evaluateNamed_points rest later) fun _ => .pure

end

/-! ### Items -/

theorem openType_points {item : WithItem} (h : StandsIn places (.item item)) (id : TypeId)
    (args : Arguments) : Points places (openType kit item id args) := by
  have context : StandsIn places (.expr item.context) := h.part List.mem_cons_self
  refine .bind (assemblingAt_points (Assembly.openScope_points id args) context.self h.self) ?_
  refine fun token => .bind (.liftExcept fun e failed => ?_) fun nested => ?_
  · unfold Assembly.scopeNames at failed
    cases found : kit.catalogue.element token.id with
    | ok type =>
      rw [found] at failed
      cases failed
    | error e' =>
      rw [found] at failed
      cases failed
      exact .of_element found
  · exact .bind .get fun s => .bind .set fun _ => .pure

theorem storeTarget_points {item : WithItem} (h : StandsIn places (.item item)) (id : TypeId) :
    Points places (storeTarget kit item id) := by
  unfold storeTarget
  split
  · exact .pure
  · exact .bind (.liftExcept fun _ => .of_element) fun _ => fun _ _ => trivial
  · exact unsupported_points h.self

theorem enter_points {item : WithItem} (h : StandsIn places (.item item)) :
    Points places (enter kit item) := by
  have context : StandsIn places (.expr item.context) := h.part List.mem_cons_self
  unfold enter
  split
  · rename_i callee args keywords span called
    rw [called] at context
    obtain ⟨first, positional, named⟩ := context.called
    refine .bind (evaluate_points callee first) fun f => ?_
    split
    · refine .bind (evaluateAll_points args positional) fun _ => ?_
      refine .bind (evaluateNamed_points keywords named) fun _ => ?_
      exact .bind (openType_points h _ _) fun _ => .bind (storeTarget_points h _) fun _ => .pure
    · exact .throw (.of_span h.self)
  · exact .bind (evaluate_points _ context) fun _ => .throw (.of_span h.self)

theorem enterAll_points {items : List WithItem} (h : ∀ i ∈ items, StandsIn places (.item i))
    (opened : List OpenItem) : Points places (enterAll kit opened items) := by
  induction items generalizing opened with
  | nil => exact .pure
  | cons item rest ih =>
    obtain ⟨first, later⟩ := List.forall_mem_cons.1 h
    exact .bind (enter_points first) fun o => ih later (o :: opened)

theorem leaveAll_points (opened : List OpenItem) : Points places (opened.forM (leave kit)) := by
  induction opened with
  | nil => exact .pure
  | cons item rest ih =>
    have left : Points places (leave kit item) :=
      .bind (assembling_points (Assembly.close_points item.token)) fun _ => fun _ _ => trivial
    exact .bind left fun _ => ih

/-! ### Statements -/

mutual

/-- A statement blames something in it. -/
theorem execute_points : (s : Stmt) → StandsIn places (.stmt s) → Points places (execute kit s)
  | .expr value span, h => by
    unfold execute
    have inside : StandsIn places (.expr value) := h.part List.mem_cons_self
    exact .bind (evaluate_points value inside) fun _ => .pure
  | .withStmt items body span, h => by
    unfold execute
    have entered : ∀ i ∈ items, StandsIn places (.item i) := fun i member =>
      h.part (List.mem_append_left _ (List.mem_map_of_mem member))
    have inner : ∀ s ∈ body, StandsIn places (.stmt s) := fun s member =>
      h.part (List.mem_append_right _ (List.mem_map_of_mem member))
    refine .bind (enterAll_points entered []) fun opened => ?_
    exact .bind (executeAll_points body inner) fun _ => leaveAll_points opened
  | .pass span, _ => by
    unfold execute
    exact .pure
  | .assign .., h | .annAssign .., h | .augAssign .., h | .breakStmt .., h | .continueStmt .., h
  | .returnStmt .., h | .delete .., h | .globalStmt .., h | .nonlocalStmt .., h
  | .assertStmt .., h | .raise .., h | .importStmt .., h | .importFrom .., h | .ifStmt .., h
  | .whileStmt .., h | .forStmt .., h | .functionDef .., h | .classDef .., h | .tryStmt .., h => by
    unfold execute
    exact unsupported_points h.self

theorem executeAll_points : (body : List Stmt) → (∀ s ∈ body, StandsIn places (.stmt s)) →
    Points places (executeAll kit body)
  | [], _ => by
    unfold executeAll
    exact .pure
  | s :: rest, h => by
    unfold executeAll
    obtain ⟨first, later⟩ := List.forall_mem_cons.1 h
    exact .bind (execute_points s first) fun _ => executeAll_points rest later

end

theorem whole_points {m : Script.Module} (h : ∀ s ∈ m.body, StandsIn places (.stmt s)) :
    Points places (whole kit m) :=
  .bind (executeAll_points m.body h) fun _ =>
    .bind (assembling_points Assembly.finish_points) fun _ => .pure

/-! ### Scripts -/

/-- The errors of a run are about constructors that are used wrongly somewhere in the text. -/
theorem usage_located {c : Catalogue} (closed : c.Closed) {limits : Limits} {text : String}
    {strict : Bool} {registry : Registry} {e : Error} {u : UsageError}
    (failed : (ofText ⟨c, strict⟩ limits registry text).1 = .error e) (cause : e.cause = .usage u)
    (made : u ≠ .emptyDocument) : e.span.IsIn (utf8 text) := by
  cases read : Script.Module.ofText limits text with
  | error e' =>
    rw [ofText, read] at failed
    cases failed
    have reading := Script.Module.ofText_fails limits text e read
    rw [cause] at reading
    cases reading
  | ok m =>
    have run : ofText ⟨c, strict⟩ limits registry text = ofModule ⟨c, strict⟩ registry m := by
      rw [ofText, read]
    rw [run] at failed
    by_cases accepted : m.verdict.isAccepted = true
    · have allowed := ofModule_accepted ⟨c, strict⟩ accepted closed registry failed
      have piece : u.isOverall = false := by
        rw [cause] at allowed
        cases u <;> first | rfl | exact absurd rfl made | cases allowed
      have located := (Script.Module.located_of_accepted read accepted).1
      have points : Points (Span.IsIn (utf8 text)) (whole ⟨c, strict⟩ m) :=
        whole_points fun s member n below => (located s member n below).span
      rw [ofModule, Script.Verdict.check, if_pos accepted] at failed
      exact points.error trivial (Prod.ext failed rfl) u cause piece
    · rw [ofModule, Script.Verdict.check, if_neg accepted] at failed
      cases failed
      cases cause

/-- Places are told as they are. Everything in a script that is read and accepted has a span of its
text that is not empty and holds the spans of its parts, which follow one another, as the statements
of the script do. Whatever text is run, a complaint about how constructors or scopes are used has
such a span too, unless there was nothing to make a document of. -/
theorem locations_faithful {types : String} {c : Catalogue}
    (loaded : Catalogue.ofText types = .ok c) (limits : Limits) (text : String) :
    (∀ m, Script.Module.ofText limits text = .ok m → m.verdict.isAccepted = true →
      (∀ s ∈ m.body, ∀ n, Within (.stmt s) n →
        n.span.IsIn (utf8 text) ∧ 1 ≤ n.span.start.line ∧
          (∀ q ∈ n.parts, q.span.Inside n.span) ∧
          n.parts.Pairwise fun p q => p.span.Before q.span) ∧
      m.body.Pairwise fun s t => s.span.Before t.span) ∧
    ∀ strict registry e u, (ofText ⟨c, strict⟩ limits registry text).1 = .error e →
      e.cause = .usage u → u ≠ .emptyDocument →
        e.span.IsIn (utf8 text) ∧ e.span.isNowhere = false := by
  constructor
  · intro m read accepted
    obtain ⟨located, ordered⟩ := Script.Module.located_of_accepted read accepted
    refine ⟨fun s member n below => ?_, ordered⟩
    obtain ⟨span, inside, apart⟩ := located s member n below
    exact ⟨span, span.start.line_pos, inside, apart⟩
  · intro strict registry e u failed cause made
    have located := usage_located (Catalogue.closed_of_ofText loaded) failed cause made
    exact ⟨located, located.not_nowhere⟩

theorem error_of_failure? {types : String} {c : Catalogue} {m : Script.Module} {cause : Cause}
    (loaded : Catalogue.ofText types = .ok c) (fails : failure? types m = some cause) :
    ∃ e, (ofModule ⟨c, false⟩ (.ofSchema none) m).1 = .error e ∧ e.cause = cause := by
  unfold failure? at fails
  rw [loaded] at fails
  dsimp only at fails
  cases failed : (ofModule ⟨c, false⟩ (.ofSchema none) m).1 with
  | ok _ =>
    rw [failed] at fails
    cases fails
  | error e =>
    rw [failed] at fails
    exact ⟨e, rfl, Option.some.inj fails⟩

/-- A script that opens a note around an ellipsis in brackets. -/
def ellipsisText : String :=
  "with Note():\n    (...)"

/-- The brackets leave no node, and what is to blame is the ellipsis in them. -/
theorem locations_faithful_ellipsis :
    ∃ c, Catalogue.ofText noteTypes = .ok c ∧
      (∃ m, Script.Module.ofText Script.defaultLimits ellipsisText = .ok m ∧
        m.verdict.isAccepted = true ∧
        ∀ s ∈ m.body, ∀ n, Within (.stmt s) n →
          n.span.IsIn (utf8 ellipsisText) ∧ ∀ q ∈ n.parts, q.span.Inside n.span) ∧
      ∃ e, (ofText ⟨c, false⟩ Script.defaultLimits (.ofSchema none) ellipsisText).1 = .error e ∧
        e.cause = .usage (.unsupported "...") ∧ e.span.IsIn (utf8 ellipsisText) := by
  have readable : (Catalogue.ofText noteTypes).isOk = true := by decide +kernel
  have parses : (Script.Module.ofText Script.defaultLimits ellipsisText).map
      (fun m => (m.verdict.isAccepted, failure? noteTypes m)) =
        .ok (true, some (.usage (.unsupported "..."))) := by
    decide +kernel
  cases loaded : Catalogue.ofText noteTypes with
  | error e =>
    rw [loaded] at readable
    cases readable
  | ok c =>
    obtain ⟨m, read, found⟩ := ok_of_map parses
    obtain ⟨accepted, fails⟩ := Prod.mk.inj found
    obtain ⟨places, blamed⟩ := locations_faithful loaded Script.defaultLimits ellipsisText
    have located : ∀ s ∈ m.body, ∀ n, Within (.stmt s) n →
        n.span.IsIn (utf8 ellipsisText) ∧ ∀ q ∈ n.parts, q.span.Inside n.span := by
      intro s member n below
      obtain ⟨span, -, inside, -⟩ := (places m read accepted).1 s member n below
      exact ⟨span, inside⟩
    obtain ⟨e, failed, cause⟩ := error_of_failure? loaded fails
    have failed : (ofText ⟨c, false⟩ Script.defaultLimits (.ofSchema none) ellipsisText).1 =
        .error e := by
      rw [ofText, read]
      exact failed
    exact ⟨c, rfl, ⟨m, read, accepted, located⟩, e, failed, cause,
      (blamed _ _ e _ failed cause nofun).1⟩

end Run

end ScoreScript
