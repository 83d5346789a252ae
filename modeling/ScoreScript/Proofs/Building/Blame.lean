import ScoreScript.Assembly.Basic
import ScoreScript.Proofs.Stateful

/-!
Where errors point. An error that a script causes by the way it uses constructors carries the span
of the use (`Error.PointsInto`), unless it is about the document as a whole. A construction has one
span to blame, however deep in the arguments it fails, and the calls that put a document together
hand it that span. Main statements: `construct_points`, `Assembly.create_points`,
`Assembly.openScope_points`.
-/

namespace ScoreScript

/-- The error is about scopes or the whole document, and not about a piece of a script. -/
def UsageError.isOverall : UsageError → Bool
  | .scopeMismatch _ | .unclosedScope _ | .emptyDocument => true
  | _ => false

/-- If a piece of a script is used wrongly, the error has one of these spans. -/
def Error.PointsInto (places : Span → Prop) (e : Error) : Prop :=
  ∀ u, e.cause = .usage u → u.isOverall = false → places e.span

namespace Error.PointsInto

variable {places : Span → Prop} {e : Error}

theorem of_span (h : places e.span) : e.PointsInto places :=
  fun _ _ _ => h

theorem of_element {c : Catalogue} {id : TypeId} (failed : c.element id = .error e) :
    e.PointsInto places := by
  unfold Catalogue.element at failed
  split at failed
  · cases failed
  · cases failed
    exact fun _ usage => nomatch usage

theorem weaken {places' : Span → Prop} (h : e.PointsInto places)
    (more : ∀ s, places s → places' s) : e.PointsInto places' :=
  fun u usage piece => more _ (h u usage piece)

/-- An error that has no place yet may get one of them. -/
theorem orAt {span : Span} (h : e.PointsInto places) (place : places span) :
    (e.orAt span).PointsInto places := by
  unfold Error.orAt
  split
  · exact of_span place
  · exact h

end Error.PointsInto

/-- The work fails with errors only that point into these places. -/
def Points {σ α : Type} (places : Span → Prop) (work : ExceptT Error (StateM σ) α) : Prop :=
  Attains (fun _ => True) work (fun _ _ => True) (·.PointsInto places)

namespace Points

variable {σ α β : Type} {places : Span → Prop} {work : ExceptT Error (StateM σ) α}

theorem pure {a : α} : Points places (Pure.pure a : ExceptT Error (StateM σ) α) :=
  Attains.pure fun _ _ => trivial

theorem throw {e : Error} (h : e.PointsInto places) :
    Points places (MonadExcept.throw e : ExceptT Error (StateM σ) α) :=
  Attains.throw h

theorem bind {next : α → ExceptT Error (StateM σ) β} (first : Points places work)
    (rest : ∀ a, Points places (next a)) : Points places (work >>= next) :=
  Attains.bind first fun a _ _ => (rest a).here trivial

theorem weaken {places' : Span → Prop} (h : Points places work)
    (more : ∀ s, places s → places' s) : Points places' work :=
  Attains.weaken h (fun _ _ done => done) fun _ points => points.weaken more

theorem liftExcept {result : Except Error α}
    (h : ∀ e, result = .error e → e.PointsInto places) :
    Points places (MonadLift.monadLift result : ExceptT Error (StateM σ) α) :=
  Attains.liftExcept (fun _ _ _ _ => trivial) h

/-- Work on the state that does not fail. -/
theorem liftState {work : StateM σ α} :
    Points places (MonadLift.monadLift work : ExceptT Error (StateM σ) α) :=
  Attains.liftState fun _ _ => trivial

/-- Work on a part of the state. -/
theorem zoom {τ : Type} {inner : ExceptT Error (StateM τ) α} (part : σ → τ) (put : σ → τ → σ)
    (run : ∀ s, work.run s = ((inner.run (part s)).1, put s (inner.run (part s)).2))
    (h : Points places inner) : Points places work := by
  intro s _
  have outcome := h (part s) trivial
  rw [run]
  cases done : inner.run (part s) with
  | mk result t =>
    rw [done] at outcome
    cases result with
    | ok a => trivial
    | error e => exact outcome

theorem get : Points places (MonadState.get : ExceptT Error (StateM σ) σ) :=
  fun _ _ => trivial

theorem set {s : σ} : Points places (MonadStateOf.set s : ExceptT Error (StateM σ) PUnit) :=
  fun _ _ => trivial

end Points

/-! ### Constructions -/

namespace Draft

theorem start_points {c : Catalogue} {span : Span} {id : TypeId} {given : Nat}
    {names : List String} {e : Error} (failed : start c span id given names = .error e) :
    e.PointsInto (· = span) := by
  unfold start at failed
  cases found : c.element id with
  | error e' =>
    rw [found] at failed
    cases failed
    exact .of_element found
  | ok type =>
    rw [found] at failed
    simp only [Bind.bind, Except.bind] at failed
    split at failed
    · cases failed
      exact .of_span rfl
    · split at failed
      · cases failed
        exact .of_span rfl
      · cases failed

theorem give_points {span : Span} {name : String} {v : Value} {make : TypeId → Making Element}
    {d : Draft} (made : ∀ slot, Points (· = span) (make slot)) :
    Points (· = span) (d.give span name v make) := by
  unfold give
  split
  · exact .pure
  · split
    · exact .throw (.of_span rfl)
    · exact .pure
    · exact .pure
    · split
      · exact .throw (.of_span rfl)
      · exact .bind (made _) fun _ => .liftState

end Draft

variable {c : Catalogue} {span : Span}

theorem plainElement_points {v : Value} {room : Nat} {id : TypeId} :
    Points (· = span) (plainElement c span v room id) := by
  induction room generalizing id with
  | zero => exact .throw fun _ usage => nomatch usage
  | succ room ih =>
    unfold plainElement
    refine .bind (.liftExcept fun _ => Draft.start_points) fun d => ?_
    split
    · exact .pure
    · exact .pure
    · exact .pure
    · exact .bind ih fun _ => .bind .liftState fun _ => .pure

mutual

theorem toElement_points {id : TypeId} :
    (v : Value) → Points (· = span) (Value.toElement c span id v)
  | .bundle ⟨positional, named⟩ => by
    unfold Value.toElement
    refine .bind (.liftExcept fun _ => Draft.start_points) fun d => ?_
    exact .bind (giveInTurn_points positional _ d) fun d =>
      .bind (giveNamed_points named d) fun _ => .pure
  | .tuple items => by
    unfold Value.toElement
    refine .bind (.liftExcept fun _ => Draft.start_points) fun d => ?_
    exact .bind (giveInTurn_points items _ d) fun _ => .pure
  | .map entries => by
    unfold Value.toElement
    refine .bind (.liftExcept fun _ => Draft.start_points) fun d => ?_
    exact .bind (giveNamed_points entries d) fun _ => .pure
  | .none | .bool _ | .int _ | .float _ | .str _ | .bytes _ | .element _ | .type _ | .helper => by
    unfold Value.toElement
    exact plainElement_points

theorem giveInTurn_points : (values : List Value) → (fields : List (String × Field)) →
    (d : Draft) → Points (· = span) (giveInTurn c span values fields d)
  | v :: rest, _ :: fields, d => by
    unfold giveInTurn
    exact .bind (Draft.give_points fun _ => toElement_points v) fun d =>
      giveInTurn_points rest fields d
  | [], _, _ => by
    unfold giveInTurn
    exact .pure
  | _ :: _, [], _ => by
    unfold giveInTurn
    exact .pure

theorem giveNamed_points : (entries : List (String × Value)) → (d : Draft) →
    Points (· = span) (giveNamed c span entries d)
  | (_, v) :: rest, d => by
    unfold giveNamed
    exact .bind (Draft.give_points fun _ => toElement_points v) fun d => giveNamed_points rest d
  | [], _ => by
    unfold giveNamed
    exact .pure

end

/-- However deep in the arguments a construction fails, its span is to blame. -/
theorem construct_points (id : TypeId) (args : Arguments) :
    Points (· = span) (construct c span id args) :=
  toElement_points (.bundle args)

/-! ### Documents -/

namespace Assembly

variable {kit : Kit} {places : Span → Prop}

theorem making_points {α : Type} {work : Making α} (h : Points places work) :
    Points places (making work) :=
  h.zoom Assembly.log (fun a log => { a with log }) fun _ => rfl

theorem create_points (id : TypeId) (args : Arguments) :
    Points (· = span) (create kit id args span) :=
  .bind (making_points (construct_points id args)) fun _ => .liftState

theorem openScope_points (id : TypeId) (args : Arguments) :
    Points (· = span) (openScope kit id args span) :=
  .bind (making_points (construct_points id args)) fun _ =>
    .bind (.liftExcept fun _ => .of_element) fun _ => .bind .get fun _ => .bind .set fun _ => .pure

theorem escalate_points {tag : String} {log : Log} {e : Error}
    (failed : escalate kit tag log = .error e) : e.PointsInto places := by
  unfold escalate at failed
  split at failed
  · split at failed
    · cases failed
    · cases failed
      exact fun _ usage => nomatch usage
  · cases failed

/-- Closing an element blames no piece of a script. -/
theorem close_points (token : ScopeToken) : Points places (close kit token) := by
  have mismatch {name : String} :
      (Error.bare (.usage (.scopeMismatch name))).PointsInto places := by
    rintro _ ⟨⟩ piece
    cases piece
  refine .bind .get fun a => ?_
  split
  · split
    · refine .bind .set fun _ => .bind .liftState fun d => ?_
      refine .bind .liftState fun _ => ?_
      split
      · exact .bind .get fun _ => .liftExcept fun _ => escalate_points
      · exact .pure
    · exact .throw mismatch
  · exact .throw mismatch

/-- Nor does finishing a document. -/
theorem finish_points : Points places (finish kit) := by
  refine .bind .get fun a => ?_
  split
  · refine .throw ?_
    rintro _ ⟨⟩ piece
    cases piece
  · refine .throw ?_
    rintro _ ⟨⟩ piece
    cases piece
  · refine .bind .liftState fun _ => .bind .get fun _ => ?_
    exact .bind (.liftExcept fun _ => escalate_points) fun _ => .pure

end Assembly

end ScoreScript
