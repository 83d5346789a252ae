import ScoreScript.Proofs.Run.Balance
import ScoreScript.Proofs.Run.Points

/-!
Hygiene of names. Wherever a run evaluates an expression, each name that means something means the
helper, the element of a `with` item, an outermost type, or a type nested in an element that is
open at that point. Main statements: `starts_hygienic`, `scope_hygiene`.
-/

namespace ScoreScript

open Script (Expr KeywordArg Stmt WithItem)

/-- Where a meaning of a name can come from, with these `as` targets and these scopes open. -/
inductive Origin (c : Catalogue) (targets : List Expr) (tokens : List ScopeToken) :
    String → Value → Prop
  | helper : Origin c targets tokens Bindings.helperName .helper
  | target {t : Expr} {name tag : String} (member : t ∈ targets)
    (names : t.storedName? = some name) : Origin c targets tokens name (.element tag)
  | global {name : String} {id : TypeId} (member : (name, id) ∈ c.globals) :
    Origin c targets tokens name (.type id)
  | nested {name : String} {id : TypeId} {token : ScopeToken} {type : ElementType}
    (opened : token ∈ tokens) (found : c.get? token.id = some type)
    (member : (name, id) ∈ type.scope) : Origin c targets tokens name (.type id)

/-- Every name has an origin. -/
def Session.Hygienic (c : Catalogue) (targets : List Expr) (s : Session) : Prop :=
  ∀ name v, Assoc.get? s.bindings name = some v →
    Origin c targets s.assembly.tokens name v

namespace Session.Hygienic

open Run

variable {kit : Kit} {targets : List Expr} {s s' : Session}

theorem congr (clean : s.Hygienic kit.catalogue targets)
    (same : s'.At s.bindings s.assembly.tokens) : s'.Hygienic kit.catalogue targets := by
  unfold Session.Hygienic
  rw [same.bindings, same.tokens]
  exact clean

/-- Storing to `as` targets gives their names an origin. -/
theorem store {b : Bindings} {stored : List Expr} {tokens : List ScopeToken}
    (before : ∀ name v, Assoc.get? b name = some v → Origin kit.catalogue targets tokens name v)
    (stores : Bindings.Stores stored b s.bindings) (inside : stored ⊆ targets)
    (same : s.assembly.tokens = tokens) : s.Hygienic kit.catalogue targets := by
  intro name v found
  rw [same]
  by_cases other : ∀ t ∈ stored, t.storedName? ≠ some name
  · exact before name v ((stores.kept name other).symm.trans found)
  · push Not at other
    obtain ⟨t, member, names⟩ := other
    obtain ⟨name', tag, here, marked⟩ := stores.stored t member
    cases Option.some.inj (names.symm.trans here)
    cases found.symm.trans marked
    exact .target (inside member) names

theorem ran {stored : List Expr} (clean : s.Hygienic kit.catalogue targets)
    (ran : Ran stored s.bindings s.assembly.tokens s') (inside : stored ⊆ targets) :
    s'.Hygienic kit.catalogue targets :=
  store clean ran.stores inside ran.tokens

/-- The names that an item binds come from the type that it opens. -/
theorem entered {stored : List Expr} {o : OpenItem}
    (clean : s.Hygienic kit.catalogue targets)
    (entered : Entered kit s.bindings s.assembly.tokens stored o s') (inside : stored ⊆ targets) :
    s'.Hygienic kit.catalogue targets := by
  obtain ⟨type, found, -, stores⟩ := entered.nested
  refine store (fun name v bound => ?_) stores inside entered.tokens
  rw [Bindings.get?_injectAll] at bound
  rcases Option.or_eq_some_iff.1 bound with before | ⟨-, injected⟩
  · cases clean name v before with
    | helper => exact .helper
    | target member names => exact .target member names
    | global member => exact .global member
    | nested opened known member => exact .nested (List.mem_cons_of_mem _ opened) known member
  · obtain ⟨id, member, rfl⟩ := Option.map_eq_some_iff.1 injected
    exact .nested List.mem_cons_self found (Assoc.mem_of_get? member)

theorem evaluated {e : Expr} {v : Value} (clean : s.Hygienic kit.catalogue targets)
    (done : (evaluate kit e).run s = (.ok v, s')) : s'.Hygienic kit.catalogue targets :=
  clean.congr ((evaluate_steady e).ok ⟨rfl, rfl⟩ done).1

theorem evaluatedAll {items : List Expr} {vs : List Value}
    (clean : s.Hygienic kit.catalogue targets)
    (done : (evaluateAll kit items).run s = (.ok vs, s')) : s'.Hygienic kit.catalogue targets :=
  clean.congr ((evaluateAll_steady items).ok ⟨rfl, rfl⟩ done)

theorem enteredItem {item : WithItem} {o : OpenItem}
    (clean : s.Hygienic kit.catalogue targets) (done : (enter kit item).run s = (.ok o, s'))
    (inside : item.target.toList ⊆ targets) : s'.Hygienic kit.catalogue targets :=
  clean.entered ((enter_steady item).ok ⟨rfl, rfl⟩ done) inside

theorem enteredAll {items : List WithItem} {opened all : List OpenItem}
    (clean : s.Hygienic kit.catalogue targets)
    (done : (enterAll kit opened items).run s = (.ok all, s'))
    (inside : Script.itemTargets items ⊆ targets) : s'.Hygienic kit.catalogue targets := by
  induction items generalizing s opened with
  | nil =>
    cases done
    exact clean
  | cons item rest ih =>
    rw [Script.itemTargets, List.flatMap_cons, List.append_subset] at inside
    obtain ⟨o, s₁, first, later⟩ := ok_of_run_bind done
    exact ih (clean.enteredItem first inside.1) later inside.2

end Session.Hygienic

namespace Run

/-- What the `with` items of a task store to. -/
def Task.targets : Task → List Expr
  | .expr _ | .exprs _ | .keywords _ => []
  | .item i => i.target.toList
  | .items is => Script.itemTargets is
  | .stmt s => s.targets
  | .body b => Script.bodyTargets b

/-- One step into a script keeps the names clean. -/
theorem starts_hygienic {kit : Kit} {targets : List Expr} {p p' : Task × Session}
    (starts : Starts kit p p') (inside : p.1.targets ⊆ targets)
    (clean : p.2.Hygienic kit.catalogue targets) :
    p'.1.targets ⊆ targets ∧ p'.2.Hygienic kit.catalogue targets := by
  cases starts with
  | tuple | operand | callee | firstExpr | firstKeyword | context | itemCallee | statement =>
    exact ⟨List.nil_subset _, clean⟩
  | args found | laterExprs found | laterKeywords found | itemArgs _ found =>
    exact ⟨List.nil_subset _, clean.evaluated found⟩
  | named found _ positional | itemNamed _ found positional =>
    exact ⟨List.nil_subset _, (clean.evaluated found).evaluatedAll positional⟩
  | firstItem => exact ⟨(List.append_subset.1 inside).1, clean⟩
  | laterItems first =>
    obtain ⟨here, later⟩ := List.append_subset.1 inside
    exact ⟨later, clean.enteredItem first here⟩
  | withItems => exact ⟨(List.append_subset.1 inside).1, clean⟩
  | withBody entered =>
    obtain ⟨items, body⟩ := List.append_subset.1 inside
    exact ⟨body, clean.enteredAll entered items⟩
  | firstStmt => exact ⟨(List.append_subset.1 inside).1, clean⟩
  | laterStmts first =>
    obtain ⟨here, later⟩ := List.append_subset.1 inside
    exact ⟨later, clean.ran ((execute_steady _ _ _).ok ⟨rfl, rfl⟩ first) here⟩

/-! ### Runs -/

/-- At first a name means the helper or an outermost type. -/
theorem start_hygienic (c : Catalogue) (targets : List Expr) (registry : Registry) :
    Session.Hygienic c targets ⟨.start c, .start registry⟩ := by
  intro name v found
  by_cases helper : name = Bindings.helperName
  · rw [Bindings.start, Assoc.get?_put, if_pos helper] at found
    cases found
    exact helper ▸ .helper
  · rw [Bindings.get?_start c helper] at found
    obtain ⟨id, member, rfl⟩ := Option.map_eq_some_iff.1 found
    exact .global (Assoc.mem_of_get? member)

/-- All points of a run have clean names, if it starts with clean names. -/
theorem reaches_hygienic {kit : Kit} {targets : List Expr} {p p' : Task × Session}
    (reaches : Reaches kit p p') (inside : p.1.targets ⊆ targets)
    (clean : p.2.Hygienic kit.catalogue targets) :
    p'.1.targets ⊆ targets ∧ p'.2.Hygienic kit.catalogue targets := by
  induction reaches with
  | refl => exact ⟨inside, clean⟩
  | tail _ starts ih => exact starts_hygienic starts ih.1 ih.2

/-- Scopes of names are kept clean. Statements that go well, whatever the names were before, leave
an element marker under each of their `as` targets and every other name as it was. Wherever a run
evaluates an expression, each name has its origin, and a run that goes well has evaluated all there
are. Injecting changes no name that is bound. -/
theorem scope_hygiene (kit : Kit) :
    (∀ (body : List Stmt) (s s' : Session), (executeAll kit body).run s = (.ok (), s') →
      (∀ name, (∀ t ∈ Script.bodyTargets body, t.storedName? ≠ some name) →
        Assoc.get? s'.bindings name = Assoc.get? s.bindings name) ∧
      ∀ t ∈ Script.bodyTargets body, ∃ name tag,
        t.storedName? = some name ∧ Assoc.get? s'.bindings name = some (.element tag)) ∧
    (∀ (registry : Registry) (m : Script.Module),
      let start : Session := ⟨.start kit.catalogue, .start registry⟩
      (∀ e s, Reaches kit (.body m.body, start) (.expr e, s) →
        ∀ name v, Assoc.get? s.bindings name = some v →
          Origin kit.catalogue (Script.bodyTargets m.body) s.assembly.tokens name v) ∧
      ∀ s', (executeAll kit m.body).run start = (.ok (), s') →
        ∀ e, (Task.body m.body).Includes (.expr e) →
          ∃ s, Reaches kit (.body m.body, start) (.expr e, s)) ∧
    ∀ (b : Bindings) (types : Assoc TypeId) (name : String) (v : Value),
      Assoc.get? b name = some v → Assoc.get? (b.injectAll types).1 name = some v := by
  refine ⟨fun body s s' done => ?_, fun registry m => ⟨fun e s reaches => ?_,
    fun s' done e inside => ?_⟩, fun b types name v bound => ?_⟩
  · have ran := (executeAll_steady body s.bindings s.assembly.tokens).ok ⟨rfl, rfl⟩ done
    exact ⟨ran.stores.kept, ran.stores.stored⟩
  · exact (reaches_hygienic reaches (List.Subset.refl _) (start_hygienic _ _ registry)).2
  · have whole : (Task.body m.body).Done kit _ s' := done
    obtain ⟨s, -, reached, -⟩ := reaches_of_done whole inside
    exact ⟨s, reached⟩
  · rw [Bindings.get?_injectAll, bound, Option.some_or]

/-- A catalogue in which notes have pitches. -/
def noteCatalogue : Catalogue :=
  ⟨#[⟨"Note", "note", [], [], [("Pitch", ⟨1⟩)], none, false⟩,
    ⟨"Pitch", "pitch", [], [], [], none, false⟩], [("Note", ⟨0⟩)], "", []⟩

/-- A call that makes a pitch. -/
def pitchCall : Expr :=
  .call (.name "Pitch" .load .nowhere) [] [] .nowhere

/-- A script that makes a pitch inside a note that has a name. -/
def pitchScript : Script.Module :=
  ⟨[.withStmt
    [⟨.call (.name "Note" .load .nowhere) [] [] .nowhere, some (.name "n" .store .nowhere),
      .nowhere⟩]
    [.expr pitchCall .nowhere] .nowhere]⟩

/-- Pitches are known inside the note, where they are nested in its type, and unknown after it; the
name of the note remains. -/
theorem scope_hygiene_pitch :
    (∃ s, Reaches ⟨noteCatalogue, true⟩
        (.body pitchScript.body, ⟨.start noteCatalogue, .start (.ofSchema none)⟩)
        (.expr pitchCall, s) ∧
      Origin noteCatalogue (Script.bodyTargets pitchScript.body) s.assembly.tokens "Pitch"
        (.type ⟨1⟩)) ∧
    ∃ s', (executeAll ⟨noteCatalogue, true⟩ pitchScript.body).run
        ⟨.start noteCatalogue, .start (.ofSchema none)⟩ = (.ok (), s') ∧
      Assoc.get? s'.bindings "Pitch" = none ∧
      ∃ tag, Assoc.get? s'.bindings "n" = some (.element tag) := by
  obtain ⟨blocks, points, -⟩ := scope_hygiene ⟨noteCatalogue, true⟩
  have done : (executeAll ⟨noteCatalogue, true⟩ pitchScript.body).run
      ⟨.start noteCatalogue, .start (.ofSchema none)⟩ = (.ok (), _) := rfl
  obtain ⟨kept, stored⟩ := blocks _ _ _ done
  refine ⟨?_, _, done, ?_, ?_⟩
  · have inside : Reaches ⟨noteCatalogue, true⟩
        (.body pitchScript.body, ⟨.start noteCatalogue, .start (.ofSchema none)⟩)
        (.expr pitchCall, _) :=
      (((Relation.ReflTransGen.single .firstStmt).tail (.withBody rfl)).tail .firstStmt).tail
        .statement
    exact ⟨_, inside, (points _ _).1 _ _ inside "Pitch" (.type ⟨1⟩) rfl⟩
  · exact (kept "Pitch" (by decide)).trans rfl
  · obtain ⟨name, tag, names, found⟩ := stored _ List.mem_cons_self
    cases names
    exact ⟨tag, found⟩

end Run

end ScoreScript
