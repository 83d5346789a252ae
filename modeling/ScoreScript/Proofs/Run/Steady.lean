import ScoreScript.Proofs.Building.Steady
import ScoreScript.Proofs.Run.Scope
import ScoreScript.Proofs.Sandbox.Exactness
import ScoreScript.Run.Basic

/-!
What one piece of work does to the open scopes and the names of a session. A piece that goes well
leaves them as they were, save that entering a `with` item puts one scope on the others and binds
names. A piece of syntax that the sandbox accepts fails in the ways of `Cause.OfAccepted` only.
Main statements: `evaluate_steady`, `enter_steady`, `leave_steady`.
-/

namespace ScoreScript

/-- A session with these names and these open scopes. -/
structure Session.At (b : Bindings) (tokens : List ScopeToken) (s : Session) : Prop where
  bindings : s.bindings = b
  tokens : s.assembly.tokens = tokens

namespace Bindings

/-- A type can only come from a name. -/
def Yields (b : Bindings) (v : Value) : Prop :=
  ∀ id, v = .type id → ∃ name, Assoc.get? b name = some (.type id)

end Bindings

/-- An error that is none of an accepted script, if where it comes from is `fine` and the session
had names that lead somewhere. -/
def Blames (kit : Kit) (b : Bindings) (fine : Prop) (e : Error) : Prop :=
  fine → kit.catalogue.Closed → b.Known kit.catalogue → e.cause.OfAccepted

variable {kit : Kit} {b : Bindings} {tokens : List ScopeToken}

/-- What a part is to blame for, the whole is to blame for. -/
theorem Attains.within {α : Type} {P : Session → Prop} {work : Running α}
    {Q : α → Session → Prop} {part fine : Prop} (h : Attains P work Q (Blames kit b part))
    (inside : fine → part) : Attains P work Q (Blames kit b fine) :=
  h.weaken (fun _ _ done => done) fun _ blamed here => blamed (inside here)

/-- A type that a name means is in the catalogue. -/
theorem Blames.of_missing {id : TypeId} {fine : Prop} {e e' : Error} (yields : b.Yields (.type id))
    (failed : kit.catalogue.element id = .error e') : Blames kit b fine e := by
  intro _ closed known
  obtain ⟨name, bound⟩ := yields id rfl
  obtain ⟨type, -, element⟩ := (known name id bound).element
  rw [element] at failed
  cases failed

theorem Blames.of_arguments {id : TypeId} {fine : Prop} {e : Error} (yields : b.Yields (.type id))
    (allowed : kit.catalogue.Closed → kit.catalogue.Has id → e.cause.OfArguments) :
    Blames kit b fine e := by
  intro _ closed known
  obtain ⟨name, bound⟩ := yields id rfl
  exact (allowed closed (known name id bound)).accepted

namespace Run

open Script (Expr KeywordArg Stmt WithItem)

/-- A step of the document leaves the names. -/
theorem assembling_steady {α : Type} {step : Step α} {Q : α → Assembly → Prop}
    {R : α → Session → Prop} {E : Error → Prop} (h : Attains (·.tokens = tokens) step Q E)
    (left : ∀ a s, s.bindings = b → Q a s.assembly → R a s) :
    Attains (Session.At b tokens) (assembling step) R E := by
  intro s here
  have outcome := h s.assembly here.tokens
  have run : (assembling step).run s =
      ((step.run s.assembly).1, { s with assembly := (step.run s.assembly).2 }) := rfl
  rw [run]
  cases done : step.run s.assembly with
  | mk result a =>
    rw [done] at outcome
    cases result with
    | ok r => exact left r _ here.bindings outcome
    | error e => exact outcome

/-- Where errors get a place they are still for the same causes. -/
theorem assemblingAt_steady {α : Type} {span : Span} {step : Step α} {P : Session → Prop}
    {R : α → Session → Prop} {E E' : Error → Prop} (h : Attains P (assembling step) R E)
    (placed : ∀ e, E e → E' (e.orAt span)) : Attains P (assemblingAt span step) R E' := by
  intro s here
  have outcome := h s here
  have run : (assemblingAt span step).run s =
      (((assembling step).run s).1.mapError (·.orAt span), ((assembling step).run s).2) := rfl
  rw [run]
  cases done : (assembling step).run s with
  | mk result s' =>
    rw [done] at outcome
    cases result with
    | ok r => exact outcome
    | error e => exact placed e outcome

theorem unsupported_steady {α : Type} {what : String} {span : Span} {fine : Prop}
    {Q : α → Session → Prop} (allowed : fine → what ∈ unsupportedForms) :
    Attains (Session.At b tokens) (unsupported what span) Q (Blames kit b fine) :=
  .throw fun here _ _ => allowed here

/-! ### Expressions -/

/-- What an expression leaves: everything as it was. -/
abbrev Left (b : Bindings) (tokens : List ScopeToken) (v : Value) (s : Session) : Prop :=
  s.At b tokens ∧ b.Yields v

theorem constantValue_steady (span : Span) (value : Script.Constant) :
    Attains (Session.At b tokens) (constantValue span value) (Left b tokens)
      (Blames kit b True) := by
  cases value with
  | ellipsis => exact unsupported_steady fun _ => by simp [unsupportedForms]
  | _ => exact .pure fun s here => ⟨here, nofun⟩

theorem negate_steady (span : Span) (v : Value) :
    Attains (Session.At b tokens) (negate span v) (Left b tokens) (Blames kit b True) := by
  unfold negate
  split
  · split
    · exact .throw fun _ _ _ => trivial
    · exact .pure fun s here => ⟨here, nofun⟩
  · exact .pure fun s here => ⟨here, nofun⟩
  · exact .pure fun s here => ⟨here, nofun⟩
  · exact .throw fun _ _ _ => trivial

theorem lookUp_steady (id : String) (span : Span) :
    Attains (Session.At b tokens) (lookUp id span) (Left b tokens) (Blames kit b True) := by
  intro s here
  unfold lookUp
  rw [run_bind_ok (run_get s)]
  cases found : Assoc.get? s.bindings id with
  | none => exact fun _ _ _ => trivial
  | some v =>
    refine ⟨here, fun type same => ⟨id, ?_⟩⟩
    rw [← here.bindings, found, same]

theorem element_steady {id : TypeId} {fine : Prop} {P : Session → Prop}
    (yields : b.Yields (.type id)) :
    Attains P (MonadLift.monadLift (kit.catalogue.element id))
      (fun type s => kit.catalogue.get? id = some type ∧ P s) (Blames kit b fine) :=
  .liftExcept (fun _ _ found here => ⟨Catalogue.get?_of_element found, here⟩)
    fun _ failed => .of_missing yields failed

theorem call_steady {callee : Expr} {span : Span} {f : Value} {args : Running Arguments}
    {fine : Prop} (yields : b.Yields f)
    (given : Attains (Session.At b tokens) args (fun _ s => s.At b tokens) (Blames kit b fine)) :
    Attains (Session.At b tokens) (call kit callee span f args) (Left b tokens)
      (Blames kit b fine) := by
  unfold call
  split
  · rename_i id
    refine .bind given fun args s here => ?_
    have made : Attains (Session.At b tokens) (assemblingAt span (Assembly.create kit id args span))
        (fun _ s => s.At b tokens) (Blames kit b fine) :=
      assemblingAt_steady (assembling_steady (Assembly.create_steady id args span) fun _ _ => .mk)
        fun e allowed => by
          refine Blames.of_arguments yields ?_
          rwa [Error.cause_orAt]
    refine .bind (made.here here) fun _ s' left => ?_
    refine .bind ((element_steady yields).here left) fun type s'' found => ?_
    exact .pure fun _ same => ⟨same ▸ found.2, nofun⟩
  · refine .bind given fun args s here => ?_
    exact .pure fun _ same => ⟨same ▸ here, nofun⟩
  · exact .throw fun _ _ _ => trivial

mutual

theorem evaluate_steady : (e : Expr) →
    Attains (Session.At b tokens) (evaluate kit e) (Left b tokens) (Blames kit b e.InFragment)
  | .constant value span => by
    unfold evaluate
    exact (constantValue_steady span value).within fun _ => trivial
  | .name id use span => by
    unfold evaluate
    exact (lookUp_steady id span).within fun _ => trivial
  | .tuple items use span => by
    unfold evaluate
    refine .bind ((evaluateAll_steady items).within And.right) fun values s here => ?_
    exact .pure fun _ same => ⟨same ▸ here, nofun⟩
  | .unary op operand span => by
    cases op with
    | minus =>
      unfold evaluate
      refine .bind ((evaluate_steady operand).within And.right) fun v s here => ?_
      exact ((negate_steady span v).within fun _ => trivial).here here.1
    | _ =>
      unfold evaluate
      exact unsupported_steady fun inside => nomatch inside.1
  | .call callee args keywords span => by
    unfold evaluate
    refine .bind ((evaluate_steady callee).within And.left) fun f s here => ?_
    refine (call_steady here.2 ?_).here here.1
    refine .bind ((evaluateAll_steady args).within fun h => h.2.1) fun values s here => ?_
    refine .bind (((evaluateNamed_steady keywords).within fun h => h.2.2).here here) ?_
    exact fun entries s here => .pure fun _ same => same ▸ here
  | .list .. | .set .. | .dict .. | .member .. | .subscript .. | .slice .. | .starred ..
  | .binary .. | .boolean .. | .compare .. | .lambda .. | .conditional .. | .named ..
  | .listComp .. | .setComp .. | .dictComp .. | .generator .. | .joined .. | .formatted ..
  | .await .. | .yield .. | .yieldFrom .. => by
    unfold evaluate
    exact unsupported_steady nofun

theorem evaluateAll_steady : (items : List Expr) →
    Attains (Session.At b tokens) (evaluateAll kit items) (fun _ s => s.At b tokens)
      (Blames kit b (Script.exprsInFragment items))
  | [] => by
    unfold evaluateAll
    exact .pure fun _ here => here
  | e :: rest => by
    unfold evaluateAll
    refine .bind ((evaluate_steady e).within And.left) fun v s here => ?_
    refine .bind (((evaluateAll_steady rest).within And.right).here here.1) ?_
    exact fun values s here => .pure fun _ same => same ▸ here

theorem evaluateNamed_steady : (keywords : List KeywordArg) →
    Attains (Session.At b tokens) (evaluateNamed kit keywords) (fun _ s => s.At b tokens)
      (Blames kit b (Script.keywordsInFragment keywords))
  | [] => by
    unfold evaluateNamed
    exact .pure fun _ here => here
  | .mk none value span :: rest => by
    unfold evaluateNamed
    exact unsupported_steady fun _ => by simp [unsupportedForms]
  | .mk (some name) value span :: rest => by
    unfold evaluateNamed
    refine .bind ((evaluate_steady value).within And.left) fun v s here => ?_
    refine .bind (((evaluateNamed_steady rest).within And.right).here here.1) ?_
    exact fun entries s here => .pure fun _ same => same ▸ here

end

end Run

end ScoreScript
