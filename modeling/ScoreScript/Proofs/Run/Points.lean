import Mathlib.Logic.Relation
import ScoreScript.Proofs.Stateful
import ScoreScript.Run.Basic

/-!
The points that a run comes to: a part of the script, and the session in which the interpreter
starts to work on it. A part is started when the parts before it went well (`Starts`), so work that
goes well has come to everything in its task, and has done it well. Main statements:
`starts_of_done`, `reaches_of_done`.
-/

namespace ScoreScript

namespace Run

open Script (Expr KeywordArg Stmt WithItem)

/-- A part of a script that the interpreter works on. -/
inductive Task where
  | expr (e : Expr)
  | exprs (items : List Expr)
  | keywords (items : List KeywordArg)
  | item (item : WithItem)
  | items (items : List WithItem)
  | stmt (stmt : Stmt)
  | body (body : List Stmt)

namespace Task

/-- What has to be done to evaluate an expression. -/
def exprParts : Expr → List Task
  | .tuple list _ _ => [exprs list]
  | .unary _ operand _ => [expr operand]
  | .call callee args named _ => [expr callee, exprs args, keywords named]
  | _ => []

/-- What has to be done for a task. What an `as` target stores to is not evaluated. -/
def parts : Task → List Task
  | expr e => exprParts e
  | exprs [] => []
  | exprs (e :: rest) => [expr e, exprs rest]
  | keywords [] => []
  | keywords (k :: rest) => [expr k.value, keywords rest]
  | item i => exprParts i.context
  | items [] => []
  | items (i :: rest) => [item i, items rest]
  | stmt (.expr value _) => [expr value]
  | stmt (.withStmt entered inner _) => [items entered, body inner]
  | stmt _ => []
  | body [] => []
  | body (s :: rest) => [stmt s, body rest]

/-- The first task is made of others, the second at any depth. -/
def Includes : Task → Task → Prop :=
  Relation.ReflTransGen fun whole part => part ∈ whole.parts

/-- Work on a task goes well from one session to another. -/
def Done (kit : Kit) : Task → Session → Session → Prop
  | expr e, s, s' => ∃ v, (evaluate kit e).run s = (.ok v, s')
  | exprs list, s, s' => ∃ vs, (evaluateAll kit list).run s = (.ok vs, s')
  | keywords list, s, s' => ∃ vs, (evaluateNamed kit list).run s = (.ok vs, s')
  | item i, s, s' => ∃ o, (enter kit i).run s = (.ok o, s')
  | items list, s, s' => ∃ before opened, (enterAll kit before list).run s = (.ok opened, s')
  | stmt st, s, s' => (execute kit st).run s = (.ok (), s')
  | body list, s, s' => (executeAll kit list).run s = (.ok (), s')

end Task

/-- What can be called, so that the arguments of a call are evaluated. -/
inductive Callable : Value → Prop
  | type (id : TypeId) : Callable (.type id)
  | helper : Callable .helper

/-- The interpreter, at work on a task that it started in one session, starts a part of it in
another: after the parts before it went well. -/
inductive Starts (kit : Kit) : Task × Session → Task × Session → Prop
  | tuple {items use span s} : Starts kit (.expr (.tuple items use span), s) (.exprs items, s)
  | operand {e span s} : Starts kit (.expr (.unary .minus e span), s) (.expr e, s)
  | callee {f args keywords span s} :
    Starts kit (.expr (.call f args keywords span), s) (.expr f, s)
  | args {f args keywords span s s' v} (found : (evaluate kit f).run s = (.ok v, s'))
    (callable : Callable v) : Starts kit (.expr (.call f args keywords span), s) (.exprs args, s')
  | named {f args keywords span s s' s'' v vs} (found : (evaluate kit f).run s = (.ok v, s'))
    (callable : Callable v) (positional : (evaluateAll kit args).run s' = (.ok vs, s'')) :
    Starts kit (.expr (.call f args keywords span), s) (.keywords keywords, s'')
  | firstExpr {e rest s} : Starts kit (.exprs (e :: rest), s) (.expr e, s)
  | laterExprs {e rest s s' v} (first : (evaluate kit e).run s = (.ok v, s')) :
    Starts kit (.exprs (e :: rest), s) (.exprs rest, s')
  | firstKeyword {name value span rest s} :
    Starts kit (.keywords (.mk (some name) value span :: rest), s) (.expr value, s)
  | laterKeywords {name value span rest s s' v} (first : (evaluate kit value).run s = (.ok v, s')) :
    Starts kit (.keywords (.mk (some name) value span :: rest), s) (.keywords rest, s')
  | context {item s} (other : ∀ f args keywords span, item.context ≠ .call f args keywords span) :
    Starts kit (.item item, s) (.expr item.context, s)
  | itemCallee {item f args keywords span s} (context : item.context = .call f args keywords span) :
    Starts kit (.item item, s) (.expr f, s)
  | itemArgs {item f args keywords span s s' id}
    (context : item.context = .call f args keywords span)
    (found : (evaluate kit f).run s = (.ok (.type id), s')) :
    Starts kit (.item item, s) (.exprs args, s')
  | itemNamed {item f args keywords span s s' s'' id vs}
    (context : item.context = .call f args keywords span)
    (found : (evaluate kit f).run s = (.ok (.type id), s'))
    (positional : (evaluateAll kit args).run s' = (.ok vs, s'')) :
    Starts kit (.item item, s) (.keywords keywords, s'')
  | firstItem {item rest s} : Starts kit (.items (item :: rest), s) (.item item, s)
  | laterItems {item rest s s' o} (first : (enter kit item).run s = (.ok o, s')) :
    Starts kit (.items (item :: rest), s) (.items rest, s')
  | statement {value span s} : Starts kit (.stmt (.expr value span), s) (.expr value, s)
  | withItems {items body span s} :
    Starts kit (.stmt (.withStmt items body span), s) (.items items, s)
  | withBody {items body span s s' opened}
    (entered : (enterAll kit [] items).run s = (.ok opened, s')) :
    Starts kit (.stmt (.withStmt items body span), s) (.body body, s')
  | firstStmt {stmt rest s} : Starts kit (.body (stmt :: rest), s) (.stmt stmt, s)
  | laterStmts {stmt rest s s'} (first : (execute kit stmt).run s = (.ok (), s')) :
    Starts kit (.body (stmt :: rest), s) (.body rest, s')

/-- The points that a run comes to. -/
def Reaches (kit : Kit) : Task × Session → Task × Session → Prop :=
  Relation.ReflTransGen (Starts kit)

/-! ### Work that goes well -/

variable {kit : Kit} {s s' : Session}

/-- Work comes to a part of its task, and does it well. -/
def Passes (kit : Kit) (task : Task) (s : Session) (part : Task) : Prop :=
  ∃ s₁ s₂, Starts kit (task, s) (part, s₁) ∧ part.Done kit s₁ s₂

/-- A call that goes well has something to call, and evaluates its arguments. -/
theorem args_of_call {callee : Expr} {span : Span} {f v : Value} {args : Running Arguments}
    (done : (call kit callee span f args).run s = (.ok v, s')) :
    Callable f ∧ ∃ given s₁, args.run s = (.ok given, s₁) := by
  cases f with
  | type id =>
    obtain ⟨given, s₁, evaluated, -⟩ := ok_of_run_bind done
    exact ⟨.type id, given, s₁, evaluated⟩
  | helper =>
    obtain ⟨given, s₁, evaluated, -⟩ := ok_of_run_bind done
    exact ⟨.helper, given, s₁, evaluated⟩
  | _ => cases done

theorem passes_expr {e : Expr} {v : Value} (done : (evaluate kit e).run s = (.ok v, s')) :
    ∀ part ∈ (Task.expr e).parts, Passes kit (.expr e) s part := by
  cases e with
  | tuple items use span =>
    unfold evaluate at done
    obtain ⟨vs, s₁, all, -⟩ := ok_of_run_bind done
    exact List.forall_mem_singleton.2 ⟨s, s₁, .tuple, vs, all⟩
  | unary op operand span =>
    cases op with
    | minus =>
      unfold evaluate at done
      obtain ⟨w, s₁, negated, -⟩ := ok_of_run_bind done
      exact List.forall_mem_singleton.2 ⟨s, s₁, .operand, w, negated⟩
    | _ =>
      unfold evaluate at done
      cases done
  | call callee args keywords span =>
    unfold evaluate at done
    obtain ⟨f, s₁, found, called⟩ := ok_of_run_bind done
    obtain ⟨callable, given, s₂, arguments⟩ := args_of_call called
    obtain ⟨positional, s₃, first, named⟩ := ok_of_run_bind arguments
    obtain ⟨entries, s₄, second, -⟩ := ok_of_run_bind named
    refine List.forall_mem_cons.2 ⟨⟨s, s₁, .callee, f, found⟩, ?_⟩
    refine List.forall_mem_cons.2 ⟨⟨s₁, s₃, .args found callable, positional, first⟩, ?_⟩
    exact List.forall_mem_singleton.2
      ⟨s₃, s₄, .named found callable first, entries, second⟩
  | _ => exact List.forall_mem_nil _

theorem passes_item {item : WithItem} {o : OpenItem}
    (done : (enter kit item).run s = (.ok o, s')) :
    ∀ part ∈ (Task.item item).parts, Passes kit (.item item) s part := by
  unfold enter at done
  rw [Task.parts]
  split at done
  · rename_i callee args keywords span context
    obtain ⟨f, s₁, found, entered⟩ := ok_of_run_bind done
    cases f with
    | type id =>
      obtain ⟨positional, s₂, first, entered⟩ := ok_of_run_bind entered
      obtain ⟨named, s₃, second, -⟩ := ok_of_run_bind entered
      rw [context]
      refine List.forall_mem_cons.2 ⟨⟨s, s₁, .itemCallee context, _, found⟩, ?_⟩
      refine List.forall_mem_cons.2 ⟨⟨s₁, s₂, .itemArgs context found, positional, first⟩, ?_⟩
      exact List.forall_mem_singleton.2 ⟨s₂, s₃, .itemNamed context found first, named, second⟩
    | _ => cases entered
  · obtain ⟨f, s₁, -, entered⟩ := ok_of_run_bind done
    cases entered

/-- Work that goes well starts with every part of its task, and does it well. -/
theorem starts_of_done {task : Task} (done : task.Done kit s s') :
    ∀ part ∈ task.parts, Passes kit task s part := by
  cases task with
  | expr e =>
    obtain ⟨v, done⟩ := done
    exact passes_expr done
  | exprs list =>
    obtain ⟨vs, done⟩ := done
    cases list with
    | nil => exact List.forall_mem_nil _
    | cons e rest =>
      unfold evaluateAll at done
      obtain ⟨v, s₁, first, done⟩ := ok_of_run_bind done
      obtain ⟨more, s₂, later, -⟩ := ok_of_run_bind done
      refine List.forall_mem_cons.2 ⟨⟨s, s₁, .firstExpr, v, first⟩, ?_⟩
      exact List.forall_mem_singleton.2 ⟨s₁, s₂, .laterExprs first, more, later⟩
  | keywords list =>
    obtain ⟨vs, done⟩ := done
    cases list with
    | nil => exact List.forall_mem_nil _
    | cons k rest =>
      obtain ⟨name, value, span⟩ := k
      cases name with
      | none =>
        unfold evaluateNamed at done
        cases done
      | some name =>
        unfold evaluateNamed at done
        obtain ⟨v, s₁, first, done⟩ := ok_of_run_bind done
        obtain ⟨more, s₂, later, -⟩ := ok_of_run_bind done
        refine List.forall_mem_cons.2 ⟨⟨s, s₁, .firstKeyword, v, first⟩, ?_⟩
        exact List.forall_mem_singleton.2 ⟨s₁, s₂, .laterKeywords first, more, later⟩
  | item i =>
    obtain ⟨o, done⟩ := done
    exact passes_item done
  | items list =>
    obtain ⟨before, opened, done⟩ := done
    cases list with
    | nil => exact List.forall_mem_nil _
    | cons i rest =>
      unfold enterAll at done
      obtain ⟨o, s₁, first, later⟩ := ok_of_run_bind done
      refine List.forall_mem_cons.2 ⟨⟨s, s₁, .firstItem, o, first⟩, ?_⟩
      exact List.forall_mem_singleton.2 ⟨s₁, s', .laterItems first, _, opened, later⟩
  | stmt st =>
    cases st with
    | expr value span =>
      unfold Task.Done execute at done
      obtain ⟨v, s₁, evaluated, -⟩ := ok_of_run_bind done
      exact List.forall_mem_singleton.2 ⟨s, s₁, .statement, v, evaluated⟩
    | withStmt entered inner span =>
      unfold Task.Done execute at done
      obtain ⟨opened, s₁, first, done⟩ := ok_of_run_bind done
      obtain ⟨_, s₂, later, -⟩ := ok_of_run_bind done
      refine List.forall_mem_cons.2 ⟨⟨s, s₁, .withItems, [], opened, first⟩, ?_⟩
      exact List.forall_mem_singleton.2 ⟨s₁, s₂, .withBody first, later⟩
    | _ => exact List.forall_mem_nil _
  | body list =>
    cases list with
    | nil => exact List.forall_mem_nil _
    | cons st rest =>
      unfold Task.Done executeAll at done
      obtain ⟨_, s₁, first, later⟩ := ok_of_run_bind done
      refine List.forall_mem_cons.2 ⟨⟨s, s₁, .firstStmt, first⟩, ?_⟩
      exact List.forall_mem_singleton.2 ⟨s₁, s', .laterStmts first, later⟩

/-- Work that goes well comes to whatever its task is made of, at any depth. -/
theorem reaches_of_done {task part : Task} (done : task.Done kit s s')
    (inside : task.Includes part) :
    ∃ s₁ s₂, Reaches kit (task, s) (part, s₁) ∧ part.Done kit s₁ s₂ := by
  induction inside with
  | refl => exact ⟨s, s', .refl, done⟩
  | tail _ direct ih =>
    obtain ⟨s₁, s₂, reached, well⟩ := ih
    obtain ⟨s₃, s₄, starts, well'⟩ := starts_of_done well _ direct
    exact ⟨s₃, s₄, reached.tail starts, well'⟩

end Run

end ScoreScript
