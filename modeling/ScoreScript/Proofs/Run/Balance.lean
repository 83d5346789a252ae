import ScoreScript.Proofs.Run.Steady
import ScoreScript.Proofs.Sandbox.Exactness

/-!
Scripts leave the open scopes as they find them. The items of a `with` statement are taken one
inside the other (`nest`), so that each of them encloses what comes after it: what it opens is
closed when its inside is done, and the names it binds go. A script that the sandbox accepts
therefore never closes a wrong scope and never leaves one open. Main statements:
`execute_steady`, `accepted_balanced`.
-/

namespace ScoreScript

namespace Run

open Script (Expr KeywordArg Stmt WithItem)

variable {kit : Kit} {b : Bindings} {tokens : List ScopeToken}

/-! ### One item -/

/-- What entering an item leads to: a scope on the others, and names for the types nested in it. -/
structure Entered (kit : Kit) (b : Bindings) (tokens : List ScopeToken) (targets : List Expr)
    (o : OpenItem) (s : Session) : Prop where
  tokens : s.assembly.tokens = o.token :: tokens
  nested : ∃ type, kit.catalogue.get? o.token.id = some type ∧
    o.names = (b.injectAll type.scope).2 ∧
    Bindings.Stores targets (b.injectAll type.scope).1 s.bindings

theorem openType_steady {item : WithItem} {id : TypeId} {args : Arguments} {fine : Prop}
    (yields : b.Yields (.type id)) :
    Attains (Session.At b tokens) (openType kit item id args)
      (fun o s => o.token.id = id ∧ Entered kit b tokens [] o s) (Blames kit b fine) := by
  unfold openType
  have opened : Attains (Session.At b tokens)
      (assemblingAt item.span (Assembly.openScope kit id args item.context.span))
      (fun token s => s.At b (token :: tokens) ∧ token.id = id) (Blames kit b fine) :=
    assemblingAt_steady (assembling_steady (Assembly.openScope_steady id args _)
      fun _ _ same left => ⟨⟨same, left.2⟩, left.1⟩) fun e allowed => by
        refine Blames.of_arguments yields ?_
        rwa [Error.cause_orAt]
  refine .bind opened fun token s here => ?_
  obtain ⟨here, rfl⟩ := here
  have listed : Attains (· = s) (MonadLift.monadLift (Assembly.scopeNames kit token) : Running _)
      (fun nested s' => s' = s ∧
        ∃ type, kit.catalogue.get? token.id = some type ∧ nested = type.scope)
      (Blames kit b fine) := by
    unfold Assembly.scopeNames
    cases found : kit.catalogue.element token.id with
    | ok type =>
      exact .pure fun _ same => ⟨same, type, Catalogue.get?_of_element found, rfl⟩
    | error e => exact .throw (.of_missing yields found)
  refine .bind listed fun nested s' left => ?_
  obtain ⟨rfl, type, found, rfl⟩ := left
  rintro _ rfl
  rw [run_bind_ok (run_get _)]
  refine ⟨rfl, here.tokens, type, found, ?_⟩
  rw [here.bindings]
  exact ⟨rfl, .refl _⟩

/-- Only a name can be stored to. -/
theorem storeTarget_steady {item : WithItem} {id : TypeId} {fine : Prop}
    (has : kit.catalogue.Has id) {b' : Bindings} :
    Attains (Session.At b tokens) (storeTarget kit item id)
      (fun _ s => s.assembly.tokens = tokens ∧
        Bindings.Stores item.target.toList b s.bindings) (Blames kit b' fine) := by
  unfold storeTarget
  split
  · rename_i missing
    rw [missing]
    exact .pure fun s here => ⟨here.tokens, here.bindings ▸ .refl _⟩
  · rename_i name use span target
    obtain ⟨type, -, element⟩ := has.element
    rw [element, target]
    intro s found
    obtain ⟨rfl, here⟩ := found
    exact ⟨here, .put _ rfl _⟩
  · exact .throw fun _ _ _ => by simp [Cause.OfAccepted, unsupportedForms]

/-- Entering opens the scope of a type and stores it, whatever else the item calls. -/
theorem enter_steady (item : WithItem) :
    Attains (Session.At b tokens) (enter kit item)
      (fun o s => Entered kit b tokens item.target.toList o s)
      (Blames kit b item.context.InFragment) := by
  unfold enter
  split
  · rename_i callee args keywords _ context
    rw [context]
    refine .bind ((evaluate_steady callee).within And.left) fun f s found => ?_
    split
    · rename_i id
      refine .bind (((evaluateAll_steady args).within fun h => h.2.1).here found.1) ?_
      intro positional s here
      refine .bind (((evaluateNamed_steady keywords).within fun h => h.2.2).here here) ?_
      intro named s here
      refine .bind ((openType_steady found.2).here here) fun o s entered => ?_
      obtain ⟨rfl, tokens', type, known, names, stores⟩ := entered
      refine .bind ((storeTarget_steady ⟨type, known⟩).here ⟨rfl, tokens'⟩) fun _ s' stored => ?_
      refine .pure fun _ same => same ▸ ⟨stored.1, type, known, names, ?_⟩
      exact stores.trans stored.2
    · exact .throw fun _ _ _ => trivial
  · refine .bind (evaluate_steady item.context) fun f s _ => ?_
    exact .throw fun _ _ _ => trivial

/-- Leaving takes the scope off and the injected names away. -/
theorem leave_steady {o : OpenItem} :
    Attains (Session.At b (o.token :: tokens)) (leave kit o)
      (fun _ s => s.At (b.ejectAll o.names) tokens) (·.cause.OfAccepted) := by
  unfold leave
  have closed : Attains (Session.At b (o.token :: tokens))
      (assembling (Assembly.close kit o.token)) (fun _ s => s.At b tokens)
      (·.cause.OfAccepted) :=
    assembling_steady (Assembly.close_steady o.token) fun _ _ => .mk
  refine .bind closed fun _ s here => ?_
  rintro _ rfl
  exact ⟨congrArg (Bindings.ejectAll · o.names) here.bindings, here.tokens⟩

/-! ### Items inside one another -/

/-- Work done inside `with` items, each of which is left when what it encloses is done. -/
def nest (kit : Kit) (inner : Running Unit) : List WithItem → Running Unit
  | [] => inner
  | item :: rest => do
    let o ← enter kit item
    nest kit inner rest
    leave kit o

/-- Entering all items first and leaving them in reverse comes to the same. -/
theorem enterAll_nest (inner : Running Unit) (items : List WithItem) (opened : List OpenItem) :
    (do let all ← enterAll kit opened items; inner; all.forM (leave kit)) =
      (do nest kit inner items; opened.forM (leave kit)) := by
  induction items generalizing opened with
  | nil => simp only [enterAll, nest, pure_bind]
  | cons item rest ih =>
    simp only [enterAll, nest, bind_assoc]
    refine bind_congr fun o => ?_
    exact ih (o :: opened)

theorem execute_with (items : List WithItem) (body : List Stmt) (span : Span) :
    execute kit (.withStmt items body span) = nest kit (executeAll kit body) items := by
  rw [execute, enterAll_nest]
  exact bind_pure _

/-! ### Statements -/

/-- What statements leave: the scopes as they were, and the names with the `as` targets stored. -/
structure Ran (targets : List Expr) (b : Bindings) (tokens : List ScopeToken) (s : Session) :
    Prop where
  tokens : s.assembly.tokens = tokens
  stores : Bindings.Stores targets b s.bindings

theorem nest_steady {inner : Running Unit} {targets : List Expr} {fine : Prop}
    (steady : ∀ b tokens, Attains (Session.At b tokens) inner (fun _ => Ran targets b tokens)
      (Blames kit b fine)) (items : List WithItem) :
    Attains (Session.At b tokens) (nest kit inner items)
      (fun _ => Ran (Script.itemTargets items ++ targets) b tokens)
      (Blames kit b (Script.itemsInFragment items ∧ fine)) := by
  induction items generalizing b tokens with
  | nil => exact (steady b tokens).within And.right
  | cons item rest ih =>
    refine .bind ((enter_steady item).within fun h => h.1.1) fun o s entered => ?_
    obtain ⟨type, found, names, stored⟩ := entered.nested
    have inside := (ih (b := s.bindings)).here (s := s) ⟨rfl, entered.tokens⟩
    refine .bind (inside.weaken (fun _ _ h => h) ?_) fun _ s' ran => ?_
    · intro e blames fine closed known
      refine blames ⟨fine.1.2.2, fine.2⟩ closed ?_
      exact (known.injectAll (closed.types _ _ found).scope).stores stored
    · refine ((leave_steady.here ⟨rfl, ran.tokens⟩).weaken ?_ fun e h _ _ _ => h)
      intro _ s'' left
      refine ⟨left.tokens, ?_⟩
      rw [left.bindings, names, Script.itemTargets, List.flatMap_cons, List.append_assoc]
      exact (stored.trans ran.stores).ejectAll

mutual

theorem execute_steady : (stmt : Stmt) → ∀ b tokens,
    Attains (Session.At b tokens) (execute kit stmt) (fun _ => Ran stmt.targets b tokens)
      (Blames kit b stmt.InFragment)
  | .expr value span, b, tokens => by
    unfold execute
    refine .bind (evaluate_steady value) fun _ s left => ?_
    exact .pure fun _ same => same ▸ ⟨left.1.tokens, left.1.bindings ▸ .refl _⟩
  | .withStmt items body span, b, tokens => by
    rw [execute_with]
    exact nest_steady (executeAll_steady body) items
  | .pass span, b, tokens => by
    unfold execute
    exact .pure fun s here => ⟨here.tokens, here.bindings ▸ .refl _⟩
  | .assign .., b, tokens | .annAssign .., b, tokens | .augAssign .., b, tokens
  | .breakStmt .., b, tokens | .continueStmt .., b, tokens | .returnStmt .., b, tokens
  | .delete .., b, tokens | .globalStmt .., b, tokens | .nonlocalStmt .., b, tokens
  | .assertStmt .., b, tokens | .raise .., b, tokens | .importStmt .., b, tokens
  | .importFrom .., b, tokens | .ifStmt .., b, tokens | .whileStmt .., b, tokens
  | .forStmt .., b, tokens | .functionDef .., b, tokens | .classDef .., b, tokens
  | .tryStmt .., b, tokens => by
    unfold execute
    exact unsupported_steady nofun

theorem executeAll_steady : (body : List Stmt) → ∀ b tokens,
    Attains (Session.At b tokens) (executeAll kit body)
      (fun _ => Ran (Script.bodyTargets body) b tokens)
      (Blames kit b (Script.bodyInFragment body))
  | [], b, tokens => by
    unfold executeAll
    exact .pure fun s here => ⟨here.tokens, here.bindings ▸ .refl _⟩
  | stmt :: rest, b, tokens => by
    unfold executeAll
    refine .bind ((execute_steady stmt b tokens).within And.left) fun _ s ran => ?_
    have later := (executeAll_steady rest s.bindings tokens).here (s := s) ⟨rfl, ran.tokens⟩
    refine later.weaken (fun _ s' ran' => ⟨ran'.tokens, ran.stores.trans ran'.stores⟩) ?_
    exact fun e blames fine closed known => blames fine.2 closed (known.stores ran.stores)

end

/-! ### Scripts -/

/-- A script whose text the sandbox accepts fails in ways that are its own only. -/
theorem ofModule_accepted (kit : Kit) {m : Script.Module} (accepted : m.verdict.isAccepted = true)
    (closed : kit.catalogue.Closed) (registry : Registry) {e : Error}
    (failed : (ofModule kit registry m).1 = .error e) : e.cause.OfAccepted := by
  have inside := ((Script.Module.isAccepted_iff_isDeclarative m).1 accepted).1
  have known := Bindings.known_start closed
  have all : Attains (Session.At (.start kit.catalogue) []) (whole kit m) (fun _ _ => True)
      (·.cause.OfAccepted) := by
    refine .bind (((executeAll_steady m.body _ _).weaken (fun _ _ h => h)) ?_) fun _ s ran => ?_
    · exact fun e blames => blames inside closed known
    · have finished : Attains (Session.At s.bindings []) (assembling (Assembly.finish kit))
          (fun _ _ => True) (·.cause.OfAccepted) :=
        assembling_steady Assembly.finish_steady fun _ _ _ _ => trivial
      exact .bind (finished.here ⟨rfl, ran.tokens⟩) fun _ _ _ => .pure fun _ _ => trivial
  unfold ofModule at failed
  rw [Script.Verdict.check, if_pos accepted] at failed
  exact all.error ⟨rfl, rfl⟩ (Prod.ext failed rfl)

/-- The interpreter covers what the sandbox accepts. Whatever the catalogue file says, a statement
that goes well leaves the same scopes open, of the same types, as it found open; and a script that
is accepted fails neither for a scope nor for a type that the catalogue lacks, and for a form that
is not supported only if it is one of three. -/
theorem accepted_balanced {text : String} {c : Catalogue} (loaded : Catalogue.ofText text = .ok c)
    {m : Script.Module} (accepted : m.verdict.isAccepted = true) (strict : Bool) :
    (∀ (stmt : Stmt) (s s' : Session), (execute ⟨c, strict⟩ stmt).run s = (.ok (), s') →
      s'.assembly.tokens = s.assembly.tokens) ∧
    ∀ (registry : Registry) (e : Error), (ofModule ⟨c, strict⟩ registry m).1 = .error e →
      (∀ name, e.cause ≠ .usage (.scopeMismatch name)) ∧
      (∀ name, e.cause ≠ .usage (.unclosedScope name)) ∧
      (∀ detail, e.cause ≠ .schema (.malformed detail)) ∧
      ∀ what, e.cause = .usage (.unsupported what) →
        what = "** arguments" ∨ what = "..." ∨ what = "with target" := by
  constructor
  · intro stmt s s' done
    exact ((execute_steady stmt s.bindings s.assembly.tokens).ok ⟨rfl, rfl⟩ done).tokens
  · intro registry e failed
    have allowed := ofModule_accepted ⟨c, strict⟩ accepted
      (Catalogue.closed_of_ofText loaded) registry failed
    refine ⟨fun _ cause => ?_, fun _ cause => ?_, fun _ cause => ?_, fun what cause => ?_⟩ <;>
      rw [cause] at allowed
    · exact allowed
    · exact allowed
    · exact allowed
    · simpa [Cause.OfAccepted, unsupportedForms] using allowed

/-- A data file with one type. -/
def noteTypes : String :=
  "\x7b\"types\": \x7b\"Note\": \x7b\x7d\x7d\x7d"

/-- A script that opens a note around an ellipsis. -/
def ellipsisScript : Script.Module :=
  ⟨[.withStmt [⟨.call (.name "Note" .load .nowhere) [] [] .nowhere, none, .nowhere⟩]
    [.expr (.constant .ellipsis .nowhere) .nowhere] .nowhere]⟩

/-- How a script fails with a data file, if it does. -/
def failure? (types : String) (m : Script.Module) : Option Cause :=
  match Catalogue.ofText types with
  | .error e => some e.cause
  | .ok c =>
    match (ofModule ⟨c, false⟩ (.ofSchema none) m).1 with
    | .error e => some e.cause
    | .ok _ => none

/-- Inside an open note, the ellipsis makes an accepted script fail. -/
theorem accepted_balanced_ellipsis :
    ∃ c, Catalogue.ofText noteTypes = .ok c ∧ ellipsisScript.verdict.isAccepted = true ∧
      (∀ (stmt : Stmt) (s s' : Session), (execute ⟨c, false⟩ stmt).run s = (.ok (), s') →
        s'.assembly.tokens = s.assembly.tokens) ∧
      ∃ e what, (ofModule ⟨c, false⟩ (.ofSchema none) ellipsisScript).1 = .error e ∧
        e.cause = .usage (.unsupported what) ∧
          (what = "** arguments" ∨ what = "..." ∨ what = "with target") := by
  have accepted : ellipsisScript.verdict.isAccepted = true := by decide +kernel
  have fails : failure? noteTypes ellipsisScript = some (.usage (.unsupported "...")) := by
    decide +kernel
  unfold failure? at fails
  have readable : (Catalogue.ofText noteTypes).isOk = true := by decide +kernel
  cases loaded : Catalogue.ofText noteTypes with
  | error e =>
    rw [loaded] at readable
    cases readable
  | ok c =>
    obtain ⟨balanced, causes⟩ := accepted_balanced loaded accepted false
    rw [loaded] at fails
    dsimp only at fails
    cases failed : (ofModule ⟨c, false⟩ (.ofSchema none) ellipsisScript).1 with
    | error e =>
      rw [failed] at fails
      have cause := Option.some.inj fails
      have one := (causes _ e failed).2.2.2 _ cause
      exact ⟨c, rfl, accepted, balanced, e, "...", failed, cause, one⟩
    | ok _ =>
      rw [failed] at fails
      cases fails

end Run

end ScoreScript
