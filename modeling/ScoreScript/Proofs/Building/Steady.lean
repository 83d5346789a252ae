import ScoreScript.Assembly.Basic
import ScoreScript.Proofs.Building.Call
import ScoreScript.Proofs.Catalogue.Closed

/-!
How the calls that put a document together fail, and what they do to the scopes that are open. A
construction of a type that the catalogue has fails for its arguments only: whatever type it comes by
on the way, through child fields as deep as the arguments go, is one that the catalogue has too. A
call that goes well leaves the scopes as they were, save that opening puts one on them and closing
takes it off. Main statements: `construct_ends`, `create_steady`, `openScope_steady`, `close_steady`,
`finish_steady`.
-/

namespace ScoreScript

/-- The causes that the arguments of a construction can give. -/
def Cause.OfArguments : Cause → Prop
  | .usage (.unknownField _ _) | .usage (.prebuiltChild _ _) => True
  | .usage (.tooManyArguments _ _ _) | .usage (.duplicateArgument _ _) => True
  | .schema (.endlessField _) => True
  | _ => False

/-- Work that fails for the arguments only, and what it yields. -/
def Making.Ends {α : Type} (work : Making α) (Q : α → Prop) : Prop :=
  Attains (fun _ => True) work (fun a _ => Q a) (·.cause.OfArguments)

theorem Making.Ends.bind {α β : Type} {work : Making α} {next : α → Making β} {Q : α → Prop}
    {R : β → Prop} (first : work.Ends Q) (rest : ∀ a, Q a → (next a).Ends R) :
    Making.Ends (work >>= next) R :=
  Attains.bind first fun a _ holds => (rest a holds).here trivial

theorem Making.Ends.pure {α : Type} {a : α} {Q : α → Prop} (holds : Q a) :
    Making.Ends (Pure.pure a) Q :=
  Attains.pure fun _ _ => holds

theorem Making.Ends.throw {α : Type} {e : Error} {Q : α → Prop} (allowed : e.cause.OfArguments) :
    Making.Ends (MonadExcept.throw e) Q :=
  Attains.throw allowed

namespace Draft

variable {c : Catalogue} {span : Span}

theorem start_ends {id : TypeId} (has : c.Has id) (given : Nat) (names : List String) :
    Making.Ends (MonadLift.monadLift (start c span id given names)) fun d =>
      c.get? id = some d.type := by
  obtain ⟨type, found, element⟩ := has.element
  have outcome : start c span id given names = .ok ⟨type, .empty type.tag, []⟩ ∨
      ∃ e : Error, start c span id given names = .error e ∧ e.cause.OfArguments := by
    rw [start, element]
    simp only [Bind.bind, Except.bind]
    split
    · exact .inr ⟨_, rfl, trivial⟩
    · split
      · exact .inr ⟨_, rfl, trivial⟩
      · exact .inl rfl
  refine .liftExcept (fun d _ done _ => ?_) fun e failed => ?_
  · obtain started | ⟨e, failed, -⟩ := outcome
    · rw [started] at done
      cases done
      exact found
    · rw [failed] at done
      cases done
  · obtain started | ⟨e', failed', allowed⟩ := outcome
    · rw [started] at failed
      cases failed
    · rw [failed'] at failed
      cases failed
      exact allowed

theorem attach_ends (d : Draft) (child : Element) :
    Making.Ends (MonadLift.monadLift (d.attach span child)) fun d' => d'.type = d.type :=
  .liftState fun _ _ => rfl

/-- Giving a value leaves the type of the draft, if making the child goes well. -/
theorem give_ends {d : Draft} (knows : c.Knows d.type) (name : String) (v : Value)
    {make : TypeId → Making Element} (made : ∀ slot, c.Has slot → (make slot).Ends fun _ => True) :
    Making.Ends (d.give span name v make) fun d' => d'.type = d.type := by
  unfold give
  split
  · exact .pure rfl
  · split
    · exact .throw trivial
    · exact .pure rfl
    · exact .pure rfl
    · rename_i slot found
      have has := knows.slots _ (Assoc.mem_of_get? found) slot rfl
      split
      · exact .throw trivial
      · exact .bind (made slot has) fun child _ => d.attach_ends child

end Draft

variable {c : Catalogue} {span : Span}

theorem plainElement_ends (closed : c.Closed) (v : Value) (room : Nat) {id : TypeId}
    (has : c.Has id) :
    (plainElement c span v room id).Ends fun _ => True := by
  induction room generalizing id with
  | zero => exact .throw trivial
  | succ room ih =>
    unfold plainElement
    refine .bind (Draft.start_ends has 1 []) fun d found => ?_
    split
    · exact .pure trivial
    · exact .pure trivial
    · exact .pure trivial
    · rename_i slot _ fields
      have inside := (closed.types id d.type found).slots _ (fields ▸ List.mem_cons_self) slot rfl
      refine .bind (ih inside) fun child _ => ?_
      exact .bind (d.attach_ends child) fun _ _ => .pure trivial

mutual

theorem Value.toElement_ends (closed : c.Closed) {id : TypeId} (has : c.Has id) :
    (v : Value) → (v.toElement c span id).Ends fun _ => True
  | .bundle ⟨positional, named⟩ => by
    rw [Value.toElement]
    refine .bind (Draft.start_ends has _ _) fun d found => ?_
    have knows := closed.types id d.type found
    refine .bind (giveInTurn_ends closed positional knows d.type.fields) fun d' same => ?_
    exact .bind (giveNamed_ends closed named (same ▸ knows)) fun _ _ => .pure trivial
  | .tuple items => by
    rw [Value.toElement]
    refine .bind (Draft.start_ends has _ _) fun d found => ?_
    have knows := closed.types id d.type found
    exact .bind (giveInTurn_ends closed items knows d.type.fields) fun _ _ => .pure trivial
  | .map entries => by
    rw [Value.toElement]
    refine .bind (Draft.start_ends has _ _) fun d found => ?_
    have knows := closed.types id d.type found
    exact .bind (giveNamed_ends closed entries knows) fun _ _ => .pure trivial
  | .none => plainElement_ends closed _ _ has
  | .bool _ => plainElement_ends closed _ _ has
  | .int _ => plainElement_ends closed _ _ has
  | .float _ => plainElement_ends closed _ _ has
  | .str _ => plainElement_ends closed _ _ has
  | .bytes _ => plainElement_ends closed _ _ has
  | .type _ => plainElement_ends closed _ _ has
  | .helper => plainElement_ends closed _ _ has
  | .element _ => plainElement_ends closed _ _ has

theorem giveInTurn_ends (closed : c.Closed) {d : Draft} :
    (items : List Value) → c.Knows d.type → (fields : List (String × Field)) →
      (giveInTurn c span items fields d).Ends fun d' => d'.type = d.type
  | v :: rest, knows, (name, _) :: fields => by
    rw [giveInTurn]
    have made := fun slot (has : c.Has slot) => v.toElement_ends closed has
    refine .bind (d.give_ends knows name v made) fun d' same => ?_
    exact same ▸ giveInTurn_ends closed rest (same ▸ knows) fields
  | [], _, _ => .pure rfl
  | _ :: _, _, [] => .pure rfl

theorem giveNamed_ends (closed : c.Closed) {d : Draft} :
    (items : List (String × Value)) → c.Knows d.type →
      (giveNamed c span items d).Ends fun d' => d'.type = d.type
  | (name, v) :: rest, knows => by
    rw [giveNamed]
    have made := fun slot (has : c.Has slot) => v.toElement_ends closed has
    refine .bind (d.give_ends knows name v made) fun d' same => ?_
    exact same ▸ giveNamed_ends closed rest (same ▸ knows)
  | [], _ => .pure rfl

end

/-- A construction of a type that the catalogue has fails for its arguments only. -/
theorem construct_ends (closed : c.Closed) {id : TypeId} (has : c.Has id) (args : Arguments) :
    (construct c span id args).Ends fun _ => True :=
  Value.toElement_ends closed has (.bundle args)

end ScoreScript

namespace ScoreScript

/-- What the sandbox accepts although it cannot be run. -/
def unsupportedForms : List String :=
  ["** arguments", "...", "with target"]

/-- The causes that a script can fail with that the sandbox accepts. -/
def Cause.OfAccepted : Cause → Prop
  | .usage (.scopeMismatch _) | .usage (.unclosedScope _) => False
  | .usage (.unsupported what) => what ∈ unsupportedForms
  | .usage _ | .invalid _ _ _ => True
  | .schema (.endlessField _) => True
  | _ => False

theorem Cause.OfArguments.accepted {cause : Cause} (h : cause.OfArguments) :
    cause.OfAccepted := by
  unfold OfArguments at h
  split at h <;> trivial

/-! ### Open scopes -/

namespace Assembly

/-- The scopes that are open, innermost first, as what closes them. -/
def tokens (a : Assembly) : List ScopeToken :=
  a.frames.map fun f => ⟨f.scope, f.id⟩

variable {kit : Kit} {tokens : List ScopeToken}

theorem tokens_attach (a : Assembly) (span : Span) (e : Element) :
    (attach span e a).2.tokens = a.tokens := by
  cases frames : a.frames with
  | nil => rw [attach_nil frames, Assembly.tokens, Assembly.tokens]
  | cons top below =>
    rw [attach_frame frames, Assembly.tokens, Assembly.tokens, frames]
    rfl

/-- An element is constructed without regard to the scopes that are open. -/
theorem construct_steady (id : TypeId) (args : Arguments) (span : Span) :
    Attains (·.tokens = tokens) (making (construct kit.catalogue span id args))
      (fun _ a => a.tokens = tokens)
      (fun e => kit.catalogue.Closed → kit.catalogue.Has id → e.cause.OfArguments) := by
  intro a here
  cases done : (construct kit.catalogue span id args).run a.log with
  | mk result log =>
    rw [run_making done]
    cases result with
    | ok element => exact here
    | error e => exact fun closed has => (construct_ends closed has args).error trivial done

theorem create_steady (id : TypeId) (args : Arguments) (span : Span) :
    Attains (·.tokens = tokens) (create kit id args span) (fun _ a => a.tokens = tokens)
      (fun e => kit.catalogue.Closed → kit.catalogue.Has id → e.cause.OfArguments) := by
  refine .bind (construct_steady id args span) fun element a here => ?_
  refine .liftState fun a' same => ?_
  rw [same]
  exact (a.tokens_attach span element).trans here

theorem openScope_steady (id : TypeId) (args : Arguments) (span : Span) :
    Attains (·.tokens = tokens) (openScope kit id args span)
      (fun token a => token.id = id ∧ a.tokens = token :: tokens)
      (fun e => kit.catalogue.Closed → kit.catalogue.Has id → e.cause.OfArguments) := by
  refine .bind (construct_steady id args span) fun element a here => ?_
  refine .bind (Q := fun _ a' => a'.tokens = tokens) (.liftExcept ?_ ?_) fun type a' here => ?_
  · rintro _ _ _ rfl
    exact here
  · intro e failed closed has
    obtain ⟨type, -, element⟩ := has.element
    rw [element] at failed
    cases failed
  · rintro _ rfl
    exact ⟨rfl, congrArg _ here⟩

theorem escalate_accepted {tag : String} {log : Log} {e : Error}
    (failed : escalate kit tag log = .error e) : e.cause.OfAccepted := by
  unfold escalate at failed
  split at failed
  · split at failed
    · cases failed
    · cases failed
      trivial
  · cases failed

/-- Only the validation of a document can object to closing the innermost scope. -/
theorem close_accepted {a : Assembly} {token : ScopeToken} {top : Frame} {below : List Frame}
    {e : Error} (frames : a.frames = top :: below) (same : top.scope = token.scope)
    (failed : ((close kit token).run a).1 = .error e) : e.cause.OfAccepted := by
  rw [close_top kit token frames same] at failed
  split at failed
  · exact escalate_accepted failed
  · cases failed

theorem close_steady (token : ScopeToken) :
    Attains (·.tokens = token :: tokens) (close kit token) (fun _ a => a.tokens = tokens)
      (·.cause.OfAccepted) := by
  intro a here
  obtain ⟨top, below, frames, same, rest⟩ := List.map_eq_cons_iff.1 here
  have number : top.scope = token.scope := congrArg ScopeToken.scope same
  have left : ((close kit token).run a).2.tokens = tokens := by
    rw [close_top kit token frames number]
    exact (tokens_attach { a with frames := below, log := _ } top.span _).trans rest
  cases done : (close kit token).run a with
  | mk result a' =>
    rw [done] at left
    cases result with
    | ok _ => exact left
    | error e => exact close_accepted frames number (congrArg Prod.fst done)

/-- With all scopes closed, finishing does not complain about one. -/
theorem finish_steady :
    Attains (·.tokens = []) (finish kit) (fun _ _ => True) (·.cause.OfAccepted) := by
  intro a here
  have frames : a.frames = [] := List.map_eq_nil_iff.1 here
  cases root : a.root with
  | none =>
    rw [finish_rootless kit frames root]
    trivial
  | some e =>
    rw [finish_root frames root]
    cases outcome : escalate kit (settleRoot e a.log).1.tag (settleRoot e a.log).2 with
    | ok _ => trivial
    | error _ => exact escalate_accepted outcome

end Assembly

end ScoreScript
