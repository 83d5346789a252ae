import ScoreScript.Proofs.Building.Steady
import ScoreScript.Proofs.Context.Agreement

/-!
The scopes of a builder. Whatever is called, in whatever order and with whatever tokens, and
whether or not the calls fail: a call opens one scope with a new number, closes the innermost
scope, or leaves the scopes as they are (`call_moves`). So scopes lie on the stack in the order of
their numbers, and close in the opposite order. Main statement: `scopes_nested`.
-/

namespace ScoreScript

namespace Builder

variable {kit : Kit}

/-- What is open, and as what; innermost first. -/
def outline (b : Builder) : List (TypeId × FrameKind) :=
  b.stack.map fun f => (f.id, f.kind)

/-- What a call can do to the scopes, and the token that it issues for it. -/
inductive Moves (b b' : Builder) : Option ScopeToken → Prop
  | still (same : b'.outline = b.outline) (next : b'.nextScope = b.nextScope) : Moves b b' none
  | opened (id : TypeId) (added : b'.outline = (id, .scope b.nextScope) :: b.outline)
    (next : b'.nextScope = b.nextScope + 1) : Moves b b' (some ⟨b.nextScope, id⟩)
  | closed (gone : TypeId × FrameKind) (left : b.outline = gone :: b'.outline)
    (next : b'.nextScope = b.nextScope) : Moves b b' none

/-- Attaching changes no more than the element on top. -/
theorem attach_outline (c : Catalogue) (b : Builder) (e : Element) (span : Span) :
    ((attach c e span).run b).2.outline = b.outline ∧
      ((attach c e span).run b).2.nextScope = b.nextScope := by
  obtain ⟨stack, root, nextScope, log⟩ := b
  unfold attach
  rw [run_bind_ok (run_get _)]
  cases stack with
  | nil => exact ⟨rfl, rfl⟩
  | cons top below =>
    cases parent : c.element top.id with
    | error e =>
      simp only [parent]
      exact ⟨rfl, rfl⟩
    | ok type =>
      simp only [parent]
      exact ⟨rfl, rfl⟩

theorem call_close (b : Builder) (token : ScopeToken) :
    b.call kit (.close token) = ((close kit token).run b).2 := by
  rw [call, Call.work, run_then]

/-- Closing the innermost scope takes its frame off, and changes no other scope. -/
theorem close_outline (kit : Kit) {b : Builder} {token : ScopeToken}
    (innermost : b.IsInnermost token) :
    ∃ id, b.outline = (id, .scope token.scope) :: (b.call kit (.close token)).outline ∧
      (b.call kit (.close token)).nextScope = b.nextScope := by
  obtain ⟨top, head, kind⟩ := innermost
  obtain ⟨below, stack⟩ := List.head?_eq_some_iff.1 head
  rcases checked : checkElement .strict top.span top.reported top.element b.log with
    ⟨⟨element, reported⟩, log⟩
  obtain ⟨outline, next⟩ :=
    attach_outline kit.catalogue { b with stack := below, log } element top.span
  rw [call_close, close_leaves stack ⟨top, head, kind⟩ checked]
  refine ⟨top.id, ?_, next⟩
  rw [outline, Builder.outline, stack, List.map_cons, kind]
  rfl

theorem issuedBy_map_none {α : Type} (result : Except Error α) :
    issuedBy (result.map fun _ => none) = none := by
  cases result <;> rfl

/-- A call opens one scope, closes one or leaves them as they are. -/
theorem call_moves (kit : Kit) (b : Builder) (call : Call) :
    Moves b (b.call kit call) (issuedBy ((call.work kit).run b).1) := by
  cases call with
  | create id args span =>
    rw [Builder.call, Call.work, run_then, issuedBy_map_none]
    obtain ⟨e, log, -, run⟩ | ⟨child, log, -, run⟩ := create_cases kit id args span b
    · rw [run]
      exact .still rfl rfl
    · rw [run]
      obtain ⟨outline, next⟩ := attach_outline kit.catalogue { b with log } child span
      exact .still outline next
  | openScope id args span =>
    rw [Builder.call, Call.work]
    obtain ⟨e, log, -, run⟩ | ⟨child, log, -, run⟩ := openScope_cases kit id args span b
    · rw [run_bind_error run]
      exact .still rfl rfl
    · rw [run_bind_ok run]
      exact .opened id rfl rfl
  | close token =>
    by_cases innermost : b.IsInnermost token
    · obtain ⟨id, left, next⟩ := close_outline kit innermost
      rw [Call.work, run_then, issuedBy_map_none]
      exact .closed _ left next
    · rw [call_close, Call.work, run_then, run_close_other kit innermost]
      exact .still rfl rfl

/-! ### The scopes that are open -/

/-- The stack holds the scopes of these tokens and nothing else; from the top down their numbers
fall, and all have been given out. -/
structure Holds (b : Builder) (standing : List ScopeToken) : Prop where
  outline : b.outline = standing.map fun t => (t.id, .scope t.scope)
  ordered : standing.Pairwise fun upper lower => lower.scope < upper.scope
  known : ∀ t ∈ standing, t.scope < b.nextScope

variable {b b' : Builder} {standing : List ScopeToken}

theorem Holds.scopes (holds : b.Holds standing) :
    ∀ f ∈ b.stack, ∃ n < b.nextScope, f.kind = .scope n := by
  intro f member
  have listed : (f.id, f.kind) ∈ b.outline := List.mem_map_of_mem member
  rw [holds.outline] at listed
  obtain ⟨t, inside, same⟩ := List.mem_map.1 listed
  exact ⟨t.scope, holds.known t inside, (congrArg Prod.snd same).symm⟩

theorem Holds.kinds (holds : b.Holds standing) :
    (b.stack.map (·.kind)).Pairwise fun upper lower =>
      ∃ m n, upper = .scope m ∧ lower = .scope n ∧ n < m := by
  have kinds : b.stack.map (·.kind) = standing.map fun t => .scope t.scope :=
    calc b.stack.map (·.kind) = b.outline.map Prod.snd := by rw [Builder.outline, List.map_map]; rfl
      _ = standing.map fun t => .scope t.scope := by rw [holds.outline, List.map_map]; rfl
  rw [kinds, List.pairwise_map]
  exact holds.ordered.imp fun lower => ⟨_, _, rfl, rfl, lower⟩

theorem Moves.holds {token? : Option ScopeToken} (moves : Moves b b' token?)
    (holds : b.Holds standing) : ∃ standing', b'.Holds standing' := by
  obtain ⟨outline, ordered, known⟩ := holds
  cases moves with
  | still same next => exact ⟨standing, same.trans outline, ordered, next ▸ known⟩
  | opened id added next =>
    refine ⟨⟨b.nextScope, id⟩ :: standing, ?_, List.pairwise_cons.2 ⟨known, ordered⟩, ?_⟩
    · rw [added, outline, List.map_cons]
    · rw [next]
      exact List.forall_mem_cons.2 ⟨Nat.lt_succ_self _,
        fun t member => Nat.lt_succ_of_lt (known t member)⟩
  | closed gone left next =>
    rw [left] at outline
    cases standing with
    | nil => cases outline
    | cons top below =>
      rw [List.map_cons, List.cons.injEq] at outline
      exact ⟨below, outline.2, (List.pairwise_cons.1 ordered).2,
        next ▸ (List.forall_mem_cons.1 known).2⟩

theorem runAll_holds (kit : Kit) (calls : List Call) (holds : b.Holds standing) :
    ∃ standing', (b.runAll kit calls).Holds standing' := by
  induction calls generalizing b standing with
  | nil => exact ⟨standing, holds⟩
  | cons call rest ih =>
    obtain ⟨standing', holds'⟩ := (call_moves kit b call).holds holds
    exact ih holds'

theorem start_holds (registry : Registry) : (start registry).Holds [] :=
  ⟨rfl, .nil, nofun⟩

/-- The tokens that calls issue are numbered on from the next number. -/
theorem issued_scopes (kit : Kit) (b : Builder) (calls : List Call) :
    (issued kit b calls).map (·.scope) =
        List.range' b.nextScope (issued kit b calls).length ∧
      (b.runAll kit calls).nextScope = b.nextScope + (issued kit b calls).length := by
  induction calls generalizing b with
  | nil => exact ⟨rfl, rfl⟩
  | cons call rest ih =>
    obtain ⟨scopes, next⟩ := ih (b.call kit call)
    change (issued kit b (call :: rest)).map (·.scope) = _ ∧
      ((b.call kit call).runAll kit rest).nextScope = _
    have moves := call_moves kit b call
    rw [issued]
    generalize issuedBy ((call.work kit).run b).1 = token? at moves ⊢
    cases token? with
    | none =>
      have same : (b.call kit call).nextScope = b.nextScope := by
        cases moves <;> assumption
      rw [same] at scopes next
      exact ⟨scopes, next⟩
    | some token =>
      obtain ⟨number, same⟩ : token.scope = b.nextScope ∧
          (b.call kit call).nextScope = b.nextScope + 1 := by
        cases moves with
        | opened id added next => exact ⟨rfl, next⟩
      rw [same] at scopes next
      refine ⟨?_, ?_⟩
      · rw [Option.toList_some, List.singleton_append, List.map_cons, List.length_cons,
          List.range'_succ, scopes, number]
      · rw [next, Option.toList_some, List.singleton_append, List.length_cons]
        omega

/-! ### Scopes that were closed -/

/-- The number was given out, and its scope is not open any more. -/
def Gone (b : Builder) (number : Nat) : Prop :=
  number < b.nextScope ∧ ∀ entry ∈ b.outline, entry.2 ≠ .scope number

theorem Moves.gone {token? : Option ScopeToken} {number : Nat} (moves : Moves b b' token?)
    (gone : b.Gone number) : b'.Gone number := by
  obtain ⟨given, absent⟩ := gone
  cases moves with
  | still same next => exact ⟨next ▸ given, same ▸ absent⟩
  | opened id added next =>
    refine ⟨next ▸ Nat.lt_succ_of_lt given, ?_⟩
    rw [added]
    exact List.forall_mem_cons.2 ⟨fun same => Nat.ne_of_gt given (FrameKind.scope.inj same), absent⟩
  | closed gone left next =>
    rw [left] at absent
    exact ⟨next ▸ given, (List.forall_mem_cons.1 absent).2⟩

theorem runAll_gone {number : Nat} (calls : List Call) (gone : b.Gone number) :
    (b.runAll kit calls).Gone number := by
  induction calls generalizing b with
  | nil => exact gone
  | cons call rest ih => exact ih ((call_moves kit b call).gone gone)

theorem Gone.not_innermost {token : ScopeToken} (gone : b.Gone token.scope) :
    ¬b.IsInnermost token := by
  intro innermost
  obtain ⟨top, head, kind⟩ := innermost
  exact gone.2 (top.id, top.kind) (List.mem_map_of_mem (List.mem_of_mem_head? head)) kind

theorem close_gone {token : ScopeToken} (holds : b.Holds standing)
    (innermost : b.IsInnermost token) : (b.call kit (.close token)).Gone token.scope := by
  obtain ⟨id, left, next⟩ := close_outline kit innermost
  obtain ⟨outline, ordered, known⟩ := holds
  rw [left] at outline
  cases standing with
  | nil => cases outline
  | cons top below =>
    rw [List.map_cons, List.cons.injEq] at outline
    have number : token.scope = top.scope := FrameKind.scope.inj (congrArg Prod.snd outline.1)
    refine ⟨by rw [next, number]; exact known top List.mem_cons_self, ?_⟩
    rw [outline.2]
    intro entry member same
    obtain ⟨t, inside, rfl⟩ := List.mem_map.1 member
    have lower := (List.pairwise_cons.1 ordered).1 t inside
    exact Nat.ne_of_lt lower ((FrameKind.scope.inj same).trans number)

/-- A frame is popped by the token of the top frame only. -/
theorem close_pops_iff {token : ScopeToken} :
    (b.call kit (.close token)).stack.length + 1 = b.stack.length ↔ b.IsInnermost token := by
  have size (b : Builder) : b.stack.length = b.outline.length := (List.length_map _).symm
  rw [size, size]
  constructor
  · intro popped
    by_contra other
    rw [call_close, run_close_other kit other] at popped
    exact Nat.succ_ne_self _ popped
  · intro innermost
    obtain ⟨id, left, -⟩ := close_outline kit innermost
    rw [left, List.length_cons]

/-! ### Finishing -/

/-- An open scope keeps the document from being finished, and the innermost is named. -/
theorem finish_names (kit : Kit) (a : Assembly) : ∀ top ∈ a.stacked.stack.head?,
    ((finish kit).run a.stacked).1 =
      .error ⟨.usage (.unclosedScope (Assembly.typeName kit top.id)), top.span⟩ := by
  intro top head
  rw [Assembly.finish_stacked]
  cases frames : a.frames with
  | nil =>
    rw [Assembly.stacked, frames] at head
    cases head
  | cons first below =>
    rw [Assembly.stacked, frames] at head
    cases head
    rw [Assembly.finish_unclosed kit frames]
    rfl

/-- Nothing but an open scope makes finishing complain of one. -/
theorem finish_unclosed_iff (kit : Kit) (a : Assembly) :
    (∃ name span, ((finish kit).run a.stacked).1 = .error ⟨.usage (.unclosedScope name), span⟩) ↔
      a.stacked.stack ≠ [] := by
  rw [Assembly.finish_stacked]
  cases frames : a.frames with
  | cons top below =>
    rw [Assembly.finish_unclosed kit frames, Assembly.stacked, frames]
    exact ⟨fun _ => List.cons_ne_nil _ _, fun _ => ⟨_, _, rfl⟩⟩
  | nil =>
    have closed : a.tokens = [] := by rw [Assembly.tokens, frames]; rfl
    refine ⟨?_, fun opened => absurd ?_ opened⟩
    · intro complaint
      obtain ⟨name, span, failed⟩ := complaint
      exact (Assembly.finish_steady.error closed (Prod.ext failed rfl)).elim
    · rw [Assembly.stacked, frames]
      rfl

end Builder

/-- The scopes of a builder nest. For every sequence of calls, failed ones included, with any types,
arguments and tokens: only scopes are left on the stack, in the order of their numbers, and no two
tokens have the same number. A scope is closed by a token of its number when it is innermost, at no
other time, and never again. Finishing complains of the innermost open scope, if there is one. And
all this is what the assembly does. -/
theorem scopes_nested (kit : Kit) (registry : Registry) (calls : List Call) :
    let b := (Builder.start registry).runAll kit calls
    let a := (Assembly.start registry).runAll kit calls
    let tokens := Builder.issued kit (.start registry) calls
    ((∀ f ∈ b.stack, ∃ n < b.nextScope, f.kind = .scope n) ∧
      (b.stack.map (·.kind)).Pairwise fun upper lower =>
        ∃ m n, upper = .scope m ∧ lower = .scope n ∧ n < m) ∧
    (tokens.map (·.scope) = List.range b.nextScope ∧ (tokens.map (·.scope)).Nodup) ∧
    (∀ token,
      ((b.call kit (.close token)).stack.length + 1 = b.stack.length ↔ b.IsInnermost token) ∧
      (b.IsInnermost token → (b.call kit (.close token)).outline = b.outline.tail) ∧
      (¬b.IsInnermost token → (Builder.close kit token).run b =
        (.error (.bare (.usage (.scopeMismatch (Assembly.typeName kit token.id)))), b))) ∧
    (∀ token, b.IsInnermost token → ∀ more again, again.scope = token.scope →
      let later := (b.call kit (.close token)).runAll kit more
      (Builder.close kit again).run later =
        (.error (.bare (.usage (.scopeMismatch (Assembly.typeName kit again.id)))), later)) ∧
    ((∃ name span, ((Builder.finish kit).run b).1 =
        .error ⟨.usage (.unclosedScope name), span⟩) ↔ b.stack ≠ []) ∧
    (∀ top ∈ b.stack.head?, ((Builder.finish kit).run b).1 =
      .error ⟨.usage (.unclosedScope (Assembly.typeName kit top.id)), top.span⟩) ∧
    b = a.stacked ∧
    (∀ call : Call,
      ((call.work kit).run b).1.map (fun _ => ()) = ((call.step kit).run a).1) ∧
    ((Builder.finish kit).run b).1 = ((Assembly.finish kit).run a).1 := by
  intro b a tokens
  obtain ⟨standing, holds⟩ := Builder.runAll_holds kit calls (Builder.start_holds registry)
  obtain ⟨numbered, next⟩ := Builder.issued_scopes kit (.start registry) calls
  obtain ⟨typed, stacked⟩ : a.Typed kit.catalogue ∧ b = a.stacked :=
    Assembly.runAll_stacked (a := .start registry) nofun calls
  refine ⟨⟨holds.scopes, holds.kinds⟩, ⟨?_, ?_⟩, fun token => ⟨Builder.close_pops_iff, ?_, ?_⟩, ?_,
    ?_, ?_, stacked, ?_, ?_⟩
  · rw [numbered, next, List.range_eq_range']
    exact congrArg (List.range' 0) (Nat.zero_add _).symm
  · rw [numbered]
    exact List.nodup_range' ..
  · intro innermost
    obtain ⟨id, left, -⟩ := Builder.close_outline kit innermost
    rw [left, List.tail_cons]
  · exact Builder.run_close_other kit
  · intro token innermost more again same later
    have gone : later.Gone token.scope :=
      Builder.runAll_gone more (Builder.close_gone holds innermost)
    rw [← same] at gone
    exact Builder.run_close_other kit gone.not_innermost
  · rw [stacked]
    exact Builder.finish_unclosed_iff kit a
  · rw [stacked]
    exact Builder.finish_names kit a
  · intro call
    rw [stacked]
    exact (Assembly.call_stacked typed call).1
  · rw [stacked, Assembly.finish_stacked]

end ScoreScript
