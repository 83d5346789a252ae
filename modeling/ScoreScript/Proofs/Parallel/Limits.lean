import ScoreScript.Proofs.Parallel.Statement
import ScoreScript.Proofs.Stateful

/-!
What limits do to what is read. They do not decide it: under whatever limits on nesting, of
constructs and of holes in holes, rules that read something from the same tokens read the same
(`Rule.Agreeing`). As what is read in two steps is the same if both steps are, this is so of all
rules.

And they only refuse: reading under tighter limits comes to what it comes to under looser ones, or
it fails because of a limit (`SameOrRefused`). For steps that are put together this follows from the
steps, so that it holds of every rule (`restrained_of_parallel`); the only step that looks at the
limit is to go a level deeper, and a hole in a format string hands what is left of it to a text of
its own.
-/

namespace ScoreScript

/-- If both come to something, it is the same. -/
def Agree {α : Type} (result result' : Except Error α) : Prop :=
  ∀ a b, result = .ok a → result' = .ok b → a = b

namespace Agree

variable {α β : Type} {result result' : Except Error α}

theorem refl : Agree result result :=
  fun _ _ read read' => Except.ok.inj (read.symm.trans read')

theorem bind {next next' : α → Except Error β} (h : Agree result result')
    (h' : ∀ a, Agree (next a) (next' a)) : Agree (result >>= next) (result' >>= next') := by
  intro b b' done done'
  obtain ⟨a, first, second⟩ := ok_of_bind done
  obtain ⟨a', first', second'⟩ := ok_of_bind done'
  obtain rfl := h a a' first first'
  exact h' a b b' second second'

end Agree

namespace Script

namespace Rule

variable {α β : Type}

/-- Under whatever limits, the rules read the same if both read something. -/
def Agreeing (rule rule' : Rule α) : Prop :=
  ∀ n n' s, Agree (rule n s) (rule' n' s)

namespace Agreeing

variable {rule rule' : Rule α}

/-- A step that does not look at the limit. -/
theorem of_blind (blind : ∀ n n' s, rule n s = rule n' s) : Agreeing rule rule := by
  intro n n' s
  rw [blind n n' s]
  exact .refl

theorem bind {next next' : α → Rule β} (h : Agreeing rule rule')
    (h' : ∀ a, Agreeing (next a) (next' a)) : Agreeing (rule >>= next) (rule' >>= next') :=
  fun n n' s => Agree.bind (h n n' s) fun (a, t) => h' a n n' t

theorem nested (h : Agreeing rule rule') : Agreeing (nested rule) (Rule.nested rule') := by
  intro n n' s a b done done'
  unfold Rule.nested at done done'
  split at done
  · split at done'
    · exact h _ _ s a b done done'
    · cases done'
  · cases done

theorem loop {round round' : α → Rule (Option α)} {a : α}
    (h : ∀ a, Agreeing (round a) (round' a)) : Agreeing (loop round a) (Rule.loop round' a) := by
  intro n n' s
  induction size : s.size using Nat.strongRecOn generalizing a s with
  | ind m ih =>
    intro b b' done done'
    rw [Rule.loop] at done done'
    cases first : round a n s with
    | error e =>
      rw [first] at done
      cases done
    | ok read =>
      cases first' : round' a n' s with
      | error e =>
        rw [first'] at done'
        cases done'
      | ok read' =>
        obtain rfl := h a n n' s read read' first first'
        rw [first] at done
        rw [first'] at done'
        obtain ⟨c?, after⟩ := read
        cases c? with
        | none => exact Agree.refl b b' done done'
        | some c =>
          dsimp only at done done'
          split at done
          · rename_i less
            rw [dif_pos less] at done'
            exact ih after.size (size ▸ less) after rfl b b' done done'
          · rename_i stuck
            rw [dif_neg stuck] at done'
            exact Agree.refl b b' done done'

end Agreeing

/-- What is put together from agreeing rules agrees. -/
theorem agreeing_of_parallel {rule rule' : Rule α}
    (h : Parallel (fun _ rule rule' => Agreeing rule rule') rule rule') : Agreeing rule rule' := by
  induction h with
  | given h => exact h
  | bind _ _ ih ih' => exact ih.bind ih'
  | nested _ ih => exact ih.nested
  | loop _ ih => exact .loop ih
  | _ => exact .of_blind fun _ _ _ => rfl

end Rule

namespace Grammar

open Rule

/-- The expressions of holes agree. -/
def HolesAgree (hole hole' : Nat → String → Except Error Expr) : Prop :=
  ∀ room room' source, Agree (hole room source) (hole' room' source)

theorem knot_agrees {hole hole' : Nat → String → Except Error Expr} (h : HolesAgree hole hole')
    (size : Nat) :
    Knot.Parallel (fun _ rule rule' => Agreeing rule rule') (knot hole size) (knot hole' size) := by
  refine knot_parallel (fun k k' same same' source span n n' s => ?_) size
  rintro ⟨e, t⟩ ⟨e', t'⟩ done done'
  unfold holeValue at done done'
  dsimp only at done done'
  rw [same] at done
  rw [same'] at done'
  split at done
  · rename_i read
    split at done'
    · rename_i read'
      cases done
      cases done'
      rw [h _ _ source _ _ read read']
    · cases done'
  · cases done

theorem readHole_agrees (levels levels' : Nat) :
    HolesAgree (readHole levels) (readHole levels') := by
  induction levels generalizing levels' with
  | zero => exact fun _ _ _ _ _ failed => nomatch failed
  | succ levels ih =>
    cases levels' with
    | zero => exact fun _ _ _ _ _ _ failed => nomatch failed
    | succ levels' =>
      intro room room' source
      unfold readHole
      refine Agree.refl.bind fun tokens => ?_
      refine Agree.bind (agreeing_of_parallel ?_ _ _ _) fun _ => .refl
      refine (expressions_parallel (knot_agrees (ih levels') _)).bind fun value => ?_
      refine .bind .look fun kind => ?_
      split
      · exact .pure
      · exact .pure
      · exact .unexpected

end Grammar

/-- Tokens are read to one tree at most. -/
theorem Module.ofTokens_agree (depth depth' levels levels' : Nat)
    (tokens : List (Token TokenKind)) :
    Agree (ofTokens depth levels tokens) (ofTokens depth' levels' tokens) := by
  have knot := Grammar.knot_agrees (Grammar.readHole_agrees levels levels') tokens.length
  exact Agree.bind (Rule.agreeing_of_parallel (Grammar.script_parallel knot) _ _ _) fun _ => .refl

end Script

/-! ### Tighter and looser limits -/

/-- The second limit allows whatever the first one does; zero does not limit. -/
def Limits.Looser (tight loose : Nat) : Prop :=
  loose = 0 ∨ 0 < tight ∧ tight ≤ loose

theorem Limits.Looser.allows {tight loose n : Nat} (h : Looser tight loose)
    (allowed : Limits.allows tight n = true) : Limits.allows loose n = true := by
  simp only [Limits.allows, Bool.or_eq_true, beq_iff_eq, decide_eq_true_eq] at allowed ⊢
  rcases h with unlimited | ⟨limited, le⟩ <;> omega

/-- What is left below a depth, but at least one level, is looser under the looser limit. -/
theorem Limits.Looser.room {tight loose : Nat} (h : Looser tight loose) (depth : Nat) :
    Looser (if tight = 0 then 0 else max (tight - depth) 1)
      (if loose = 0 then 0 else max (loose - depth) 1) := by
  rcases h with rfl | ⟨limited, le⟩
  · exact .inl rfl
  · rw [if_neg (by omega), if_neg (by omega)]
    exact .inr ⟨by omega, by omega⟩

/-- The error reports a limit on untrusted input. -/
def Error.IsLimit (e : Error) : Prop :=
  ∃ limit, e.cause = .limit limit

/-- Both come to the same, or the first one is refused by a limit. -/
def SameOrRefused {α : Type} (result result' : Except Error α) : Prop :=
  result = result' ∨ ∃ e, result = .error e ∧ e.IsLimit

namespace SameOrRefused

variable {α β : Type} {result result' : Except Error α}

theorem refl : SameOrRefused result result :=
  .inl rfl

theorem refused {e : Error} (h : e.IsLimit) : SameOrRefused (.error e) result' :=
  .inr ⟨e, rfl, h⟩

theorem bind {next next' : α → Except Error β} (h : SameOrRefused result result')
    (h' : ∀ a, SameOrRefused (next a) (next' a)) :
    SameOrRefused (result >>= next) (result' >>= next') := by
  rcases h with rfl | ⟨e, rfl, limit⟩
  · cases result with
    | error e => exact refl
    | ok a => exact h' a
  · exact refused limit

/-- What is read under the tighter limits is read under the looser ones too. -/
theorem ok {a : α} (h : SameOrRefused result result') (read : result = .ok a) :
    result' = .ok a := by
  rcases h with same | ⟨e, failed, -⟩
  · rw [← same, read]
  · rw [read] at failed
    cases failed

end SameOrRefused

namespace Script

/-- As deep as another nesting, under a looser limit. -/
structure Nesting.Looser (n n' : Nesting) : Prop where
  depth : n.depth = n'.depth
  limit : Limits.Looser n.limit n'.limit

theorem Nesting.Looser.deeper {n n' : Nesting} (h : n.Looser n') :
    Nesting.Looser ⟨n.limit, n.depth + 1⟩ ⟨n'.limit, n'.depth + 1⟩ :=
  ⟨congrArg (· + 1) h.depth, h.limit⟩

namespace Rule

variable {α β : Type}

/-- Under a tighter limit the first rule reads what the second one reads under a looser one, or it
is refused by the limit. -/
def Restrained (rule rule' : Rule α) : Prop :=
  ∀ n n' s, Nesting.Looser n n' → SameOrRefused (rule n s) (rule' n' s)

namespace Restrained

variable {rule rule' : Rule α}

/-- A step that does not look at the limit. -/
theorem of_blind (blind : ∀ n n' s, rule n s = rule n' s) : Restrained rule rule :=
  fun n n' s _ => .inl (blind n n' s)

theorem bind {next next' : α → Rule β} (h : Restrained rule rule')
    (h' : ∀ a, Restrained (next a) (next' a)) : Restrained (rule >>= next) (rule' >>= next') :=
  fun n n' s looser => SameOrRefused.bind (h n n' s looser) fun (a, t) => h' a n n' t looser

theorem nested (h : Restrained rule rule') : Restrained (nested rule) (Rule.nested rule') := by
  intro n n' s looser
  unfold Rule.nested
  by_cases allowed : Limits.allows n.limit (n.depth + 1) = true
  · have allowed' : Limits.allows n'.limit (n'.depth + 1) = true :=
      looser.limit.allows (looser.depth ▸ allowed)
    rw [if_pos allowed, if_pos allowed']
    exact h _ _ s looser.deeper
  · rw [if_neg allowed]
    exact .refused ⟨_, rfl⟩

theorem loop {round round' : α → Rule (Option α)} {a : α}
    (h : ∀ a, Restrained (round a) (round' a)) :
    Restrained (loop round a) (Rule.loop round' a) := by
  intro n n' s looser
  induction size : s.size using Nat.strongRecOn generalizing a s with
  | ind m ih =>
    rw [Rule.loop, Rule.loop]
    rcases h a n n' s looser with same | ⟨e, failed, limit⟩
    · rw [← same]
      cases round a n s with
      | error e => exact .refl
      | ok result =>
        obtain ⟨b?, after⟩ := result
        cases b? with
        | none => exact .refl
        | some b =>
          dsimp only
          split
          · rename_i less
            exact ih after.size (size ▸ less) after rfl
          · exact .refl
    · rw [failed]
      exact .refused limit

end Restrained

/-- What is put together from restrained rules is restrained. -/
theorem restrained_of_parallel {rule rule' : Rule α}
    (h : Parallel (fun _ rule rule' => Restrained rule rule') rule rule') :
    Restrained rule rule' := by
  induction h with
  | given h => exact h
  | bind _ _ ih ih' => exact ih.bind ih'
  | nested _ ih => exact ih.nested
  | loop _ ih => exact .loop ih
  | _ => exact .of_blind fun _ _ _ => rfl

end Rule

namespace Grammar

open Rule

abbrev BothRestrained (α : Type) (rule rule' : Rule α) : Prop :=
  Restrained rule rule'

/-- The expression in a hole is restrained by what is left of the limit. -/
def HoleRestrained (hole : Nat → String → Except Error Expr) : Prop :=
  ∀ room room' source, Limits.Looser room room' →
    SameOrRefused (hole room source) (hole room' source)

theorem knot_restrained {hole : Nat → String → Except Error Expr} (h : HoleRestrained hole)
    (size : Nat) : Knot.Parallel BothRestrained (knot hole size) (knot hole size) := by
  refine knot_parallel (fun k k' same same' source span n n' s looser => ?_) size
  unfold holeValue
  dsimp only
  rw [same, same', ← looser.depth]
  rcases h _ _ source (looser.limit.room n.depth) with same | ⟨e, failed, limit, cause⟩
  · rw [same]
    exact .refl
  · rw [failed]
    exact .refused ⟨limit, cause⟩

/-- Holes in holes are restrained in turn, however deep they nest. -/
theorem readHole_restrained (levels : Nat) : HoleRestrained (readHole levels) := by
  induction levels with
  | zero => exact fun _ _ _ _ => .refl
  | succ levels ih =>
    intro room room' source looser
    unfold readHole
    refine SameOrRefused.refl.bind fun tokens => ?_
    refine SameOrRefused.bind (restrained_of_parallel ?_ _ _ _ ⟨rfl, looser⟩) fun _ => .refl
    refine (expressions_parallel (knot_restrained ih _)).bind fun value => .bind .look fun kind => ?_
    split
    · exact .pure
    · exact .pure
    · exact .unexpected

end Grammar

/-! ### Whole scripts -/

theorem Module.ofTokens_restrained {depth depth' : Nat} (looser : Limits.Looser depth depth')
    (levels : Nat) (tokens : List (Token TokenKind)) :
    SameOrRefused (ofTokens depth levels tokens) (ofTokens depth' levels tokens) := by
  have knot := Grammar.knot_restrained (Grammar.readHole_restrained levels) tokens.length
  exact SameOrRefused.bind
    (Rule.restrained_of_parallel (Grammar.script_parallel knot) _ _ _ ⟨rfl, looser⟩) fun _ => .refl

theorem Module.ofText_restrained {limits limits' : Limits}
    (depth : Limits.Looser limits.maxDepth limits'.maxDepth)
    (size : Limits.Looser limits.maxSize limits'.maxSize) (text : String) :
    SameOrRefused (ofText limits text) (ofText limits' text) := by
  have checked : SameOrRefused (limits.checkSize (utf8 text).length)
      (limits'.checkSize (utf8 text).length) := by
    unfold Limits.checkSize
    by_cases fits : Limits.allows limits.maxSize (utf8 text).length = true
    · rw [if_pos fits, if_pos (size.allows fits)]
      exact .refl
    · rw [if_neg fits]
      exact .refused ⟨_, rfl⟩
  exact checked.bind fun _ => SameOrRefused.refl.bind fun tokens =>
    ofTokens_restrained depth _ tokens

/-- Under any limits a script is read as it is without limits, be it to a tree or to an error, or a
limit refuses it. What is read under limits is read to the same tree where they are looser. -/
theorem limits_only_refuse (text : String) :
    (∀ limits : Limits,
      (∀ m, Module.ofText .unlimited text = .ok m → Module.ofText limits text = .ok m ∨
        ∃ e, Module.ofText limits text = .error e ∧ e.IsLimit) ∧
      ∀ e, Module.ofText .unlimited text = .error e → Module.ofText limits text = .error e ∨
        ∃ e', Module.ofText limits text = .error e' ∧ e'.IsLimit) ∧
    ∀ limits limits' : Limits, 0 < limits.maxDepth → 0 < limits.maxSize →
      (limits'.maxDepth = 0 ∨ limits.maxDepth ≤ limits'.maxDepth) →
      (limits'.maxSize = 0 ∨ limits.maxSize ≤ limits'.maxSize) →
      ∀ m, Module.ofText limits text = .ok m → Module.ofText limits' text = .ok m := by
  constructor
  · intro limits
    have same : SameOrRefused (Module.ofText limits text) (Module.ofText .unlimited text) :=
      Module.ofText_restrained (.inl rfl) (.inl rfl) text
    refine ⟨fun m read => ?_, fun e failed => ?_⟩
    · rwa [SameOrRefused, read] at same
    · rwa [SameOrRefused, failed] at same
  · intro limits limits' depth size looser looser' m read
    have same := Module.ofText_restrained (looser.imp_right fun le => ⟨depth, le⟩)
      (looser'.imp_right fun le => ⟨size, le⟩) text
    exact same.ok read

/-- The brackets in the hole are read under what the hole leaves of the limit: five levels are
enough for them, six are as well, and four are not. -/
theorem limits_only_refuse_hole :
    ∃ m, Module.ofText ⟨5, 8⟩ "f'{(1)}'" = .ok m ∧ Module.ofText ⟨6, 0⟩ "f'{(1)}'" = .ok m ∧
      ∃ e, Module.ofText ⟨4, 8⟩ "f'{(1)}'" = .error e ∧ e.IsLimit := by
  obtain ⟨only, looser⟩ := limits_only_refuse "f'{(1)}'"
  have enough : (Module.ofText ⟨5, 8⟩ "f'{(1)}'").isOk = true := by decide +kernel
  have short : (Module.ofText ⟨4, 8⟩ "f'{(1)}'").isOk = false := by decide +kernel
  cases read : Module.ofText ⟨5, 8⟩ "f'{(1)}'" with
  | error e => simp [read, Except.isOk, Except.toBool] at enough
  | ok m =>
    have more := looser ⟨5, 8⟩ ⟨6, 0⟩ (by decide) (by decide) (.inr (by decide)) (.inl rfl) m read
    have free := looser ⟨5, 8⟩ .unlimited (by decide) (by decide) (.inl rfl) (.inl rfl) m read
    refine ⟨m, rfl, more, ((only ⟨4, 8⟩).1 m free).resolve_left fun same => ?_⟩
    simp [same, Except.isOk, Except.toBool] at short

end Script

end ScoreScript
