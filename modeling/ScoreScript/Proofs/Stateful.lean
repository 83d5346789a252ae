import Mathlib.Data.List.Forall2
import Mathlib.Data.List.Induction
import ScoreScript.Error

/-!
Work on a state that may fail: what a sequence of two pieces of work comes to, and what work that
starts in a certain state can end with.
-/

namespace ScoreScript

variable {σ α β : Type}

theorem run_bind (work : ExceptT Error (StateM σ) α) (next : α → ExceptT Error (StateM σ) β)
    (s : σ) :
    (work >>= next).run s =
      match work.run s with
      | (.ok a, s') => (next a).run s'
      | (.error e, s') => (.error e, s') := by
  change (ExceptT.bindCont next (work.run s).1) (work.run s).2 = _
  cases h : work.run s with
  | mk result s' => cases result <;> rfl

theorem run_bind_ok {work : ExceptT Error (StateM σ) α} {s s' : σ} {a : α}
    (done : work.run s = (.ok a, s')) (next : α → ExceptT Error (StateM σ) β) :
    (work >>= next).run s = (next a).run s' := by
  rw [run_bind, done]

theorem run_bind_error {work : ExceptT Error (StateM σ) α} {s s' : σ} {e : Error}
    (failed : work.run s = (.error e, s')) (next : α → ExceptT Error (StateM σ) β) :
    (work >>= next).run s = (.error e, s') := by
  rw [run_bind, failed]

/-- A sequence that does not fail consists of two pieces of work that do not. -/
theorem ok_of_bind {ε : Type} {result : Except ε α} {next : α → Except ε β} {b : β}
    (done : result >>= next = .ok b) : ∃ a, result = .ok a ∧ next a = .ok b := by
  cases result with
  | error e => cases done
  | ok a => exact ⟨a, rfl, done⟩

theorem ok_of_map {ε : Type} {result : Except ε α} {f : α → β} {b : β}
    (done : result.map f = .ok b) : ∃ a, result = .ok a ∧ f a = b := by
  cases result with
  | error e => cases done
  | ok a => exact ⟨a, rfl, Except.ok.inj done⟩

theorem ok_of_toOption {ε : Type} {result : Except ε α} {a : α}
    (found : result.toOption = some a) : result = .ok a := by
  cases result with
  | error e => cases found
  | ok a' =>
    cases found
    rfl

/-- What is known of a result is known of something that is there. -/
theorem ok_of_known {ε : Type} {result : Except ε α} {f : α → β} {b : β}
    (known : result.toOption.map f = some b) : ∃ a, result = .ok a ∧ f a = b := by
  obtain ⟨a, found, same⟩ := Option.map_eq_some_iff.1 known
  exact ⟨a, ok_of_toOption found, same⟩

/-- What a traversal that succeeds yields comes from the items one by one. -/
theorem forall₂_of_mapM {ε : Type} {f : α → Except ε β} {xs : List α} {ys : List β}
    (done : xs.mapM f = .ok ys) : List.Forall₂ (fun x y => f x = .ok y) xs ys := by
  induction xs generalizing ys with
  | nil =>
    cases done
    exact .nil
  | cons x rest ih =>
    rw [List.mapM_cons] at done
    obtain ⟨y, first, done⟩ := ok_of_bind done
    obtain ⟨more, later, done⟩ := ok_of_bind done
    cases done
    exact .cons first (ih later)

theorem forall_of_forall₂ {R : α → β → Prop} {P : β → Prop} {xs : List α} {ys : List β}
    (each : List.Forall₂ R xs ys) (le : ∀ x y, R x y → P y) : ∀ y ∈ ys, P y := by
  induction each with
  | nil => exact nofun
  | cons here _ ih => exact List.forall_mem_cons.2 ⟨le _ _ here, ih⟩

theorem exists_of_mem_mapM {ε : Type} {f : α → Except ε β} {xs : List α} {ys : List β}
    (done : xs.mapM f = .ok ys) {y : β} (member : y ∈ ys) : ∃ x, f x = .ok y := by
  have each : ∀ y ∈ ys, ∃ x, f x = .ok y :=
    forall_of_forall₂ (forall₂_of_mapM done) fun x _ here => ⟨x, here⟩
  exact each y member

/-- Of entries that are taken in turn, what the first ones come to is known of all of them. -/
theorem foldlM_prefix {ε : Type} {step : σ → β → Except ε σ} {items : List β} {start last : σ}
    (holds : List β → σ → Prop) (first : holds [] start)
    (next : ∀ before item s s', before ++ [item] <+: items → holds before s →
      step s item = .ok s' → holds (before ++ [item]) s')
    (done : items.foldlM step start = .ok last) : holds items last := by
  induction items using List.reverseRecOn generalizing last with
  | nil =>
    cases done
    exact first
  | append_singleton before item ih =>
    rw [List.foldlM_append] at done
    obtain ⟨s, earlier, done⟩ := ok_of_bind done
    rw [List.foldlM_cons] at done
    obtain ⟨s', here, done⟩ := ok_of_bind done
    cases done
    have known := ih (fun before item s s' inside =>
      next before item s s' (inside.trans (List.prefix_append ..))) earlier
    exact next before item s last (List.prefix_refl _) known here

/-- A sequence of two pieces of work on a state that does not fail. -/
theorem ok_of_run_bind {work : ExceptT Error (StateM σ) α} {next : α → ExceptT Error (StateM σ) β}
    {s s' : σ} {b : β} (done : (work >>= next).run s = (.ok b, s')) :
    ∃ a s₁, work.run s = (.ok a, s₁) ∧ (next a).run s₁ = (.ok b, s') := by
  rw [run_bind] at done
  cases first : work.run s with
  | mk result s₁ =>
    rw [first] at done
    cases result with
    | error e => cases done
    | ok a => exact ⟨a, s₁, rfl, done⟩

theorem run_get (s : σ) : (get : ExceptT Error (StateM σ) σ).run s = (.ok s, s) :=
  rfl

theorem run_liftExcept (result : Except Error α) (s : σ) :
    (MonadLift.monadLift result : ExceptT Error (StateM σ) α).run s = (result, s) := by
  cases result <;> rfl

/-- The result is good, or it is a failure that is allowed. -/
def Returns (good : α → Prop) (allows : Error → Prop) : Except Error α → Prop
  | .ok a => good a
  | .error e => allows e

namespace Returns

variable {good : α → Prop} {good' : β → Prop} {allows : Error → Prop} {result : Except Error α}

theorem of_ok {a : α} (h : Returns good allows result) (done : result = .ok a) : good a := by
  rwa [done] at h

theorem of_error {e : Error} (h : Returns good allows result) (failed : result = .error e) :
    allows e := by
  rwa [failed] at h

theorem bind {next : α → Except Error β} (h : Returns good allows result)
    (h' : ∀ a, result = .ok a → good a → Returns good' allows (next a)) :
    Returns good' allows (result >>= next) := by
  cases result with
  | error e => exact h
  | ok a => exact h' a rfl h

theorem map {f : α → β} (h : Returns good allows result) (h' : ∀ a, good a → good' (f a)) :
    Returns good' allows (result.map f) := by
  cases result with
  | error e => exact h
  | ok a => exact h' a h

theorem mono {more : α → Prop} (h : Returns good allows result) (le : ∀ a, good a → more a) :
    Returns more allows result := by
  cases result with
  | error e => exact h
  | ok a => exact le a h

/-- What the steps of a traversal return is good for their items. -/
theorem mapM {f : α → Except Error β} {R : α → β → Prop} {xs : List α}
    (each : ∀ x ∈ xs, Returns (R x) allows (f x)) :
    Returns (List.Forall₂ R xs) allows (xs.mapM f) := by
  induction xs with
  | nil => exact List.Forall₂.nil
  | cons x rest ih =>
    obtain ⟨here, later⟩ := List.forall_mem_cons.1 each
    rw [List.mapM_cons]
    exact here.bind fun y _ first => (ih later).bind fun ys _ more => List.Forall₂.cons first more

/-- What the steps of a traversal find out about their items is known in the end. -/
theorem forall_mapM {f : α → Except Error β} {P : α → Prop} {xs : List α}
    (each : ∀ x ∈ xs, Returns (fun _ => P x) allows (f x)) :
    Returns (fun _ => ∀ x ∈ xs, P x) allows (xs.mapM f) :=
  (mapM each).mono fun _ all => forall_of_forall₂ all.flip fun _ _ here => here

/-- The same for a fold. -/
theorem forall_foldlM {step : σ → α → Except Error σ} {P : α → Prop} {xs : List α}
    (each : ∀ s, ∀ x ∈ xs, Returns (fun _ => P x) allows (step s x)) (s : σ) :
    Returns (fun _ => ∀ x ∈ xs, P x) allows (xs.foldlM step s) := by
  induction xs generalizing s with
  | nil => exact nofun
  | cons x rest ih =>
    rw [List.foldlM_cons]
    have later := ih fun s y member => each s y (List.mem_cons_of_mem x member)
    refine (each s x List.mem_cons_self).bind fun s' _ here => (later s').mono fun _ more => ?_
    exact List.forall_mem_cons.2 ⟨here, more⟩

/-- The same for an item that may be missing. -/
theorem forall_optionMapM {f : α → Except Error β} {P : α → Prop} {stated : Option α}
    (each : ∀ a, stated = some a → Returns (fun _ => P a) allows (f a)) :
    Returns (fun _ => ∀ a, stated = some a → P a) allows (stated.mapM f) := by
  cases stated with
  | none => exact nofun
  | some a =>
    refine (each a rfl).bind fun b _ here => ?_
    intro a' same
    cases same
    exact here

end Returns

/-- Started where `P` holds, the work ends well with `Q`, or it fails as `E` allows. -/
def Attains (P : σ → Prop) (work : ExceptT Error (StateM σ) α) (Q : α → σ → Prop)
    (E : Error → Prop) : Prop :=
  ∀ s, P s →
    match work.run s with
    | (.ok a, s') => Q a s'
    | (.error e, _) => E e

namespace Attains

variable {P : σ → Prop} {Q : α → σ → Prop} {R : β → σ → Prop} {E : Error → Prop}
  {work : ExceptT Error (StateM σ) α}

theorem ok (h : Attains P work Q E) {s s' : σ} {a : α} (holds : P s)
    (done : work.run s = (.ok a, s')) : Q a s' := by
  have outcome := h s holds
  rwa [done] at outcome

theorem error (h : Attains P work Q E) {s s' : σ} {e : Error} (holds : P s)
    (failed : work.run s = (.error e, s')) : E e := by
  have outcome := h s holds
  rwa [failed] at outcome

theorem pure {a : α} (done : ∀ s, P s → Q a s) :
    Attains P (Pure.pure a : ExceptT Error (StateM σ) α) Q E :=
  done

theorem throw {e : Error} (allowed : E e) :
    Attains P (MonadExcept.throw e : ExceptT Error (StateM σ) α) Q E :=
  fun _ _ => allowed

/-- The rest is taken up where the first part ends. -/
theorem bind {next : α → ExceptT Error (StateM σ) β} (first : Attains P work Q E)
    (rest : ∀ a s, Q a s → Attains (· = s) (next a) R E) : Attains P (work >>= next) R E := by
  intro s holds
  have outcome := first s holds
  rw [run_bind]
  cases done : work.run s with
  | mk result s' =>
    rw [done] at outcome
    cases result with
    | ok a => exact rest a s' outcome s' rfl
    | error e => exact outcome

/-- What is attained wherever `P` holds is attained in one such place. -/
theorem here (h : Attains P work Q E) {s : σ} (holds : P s) : Attains (· = s) work Q E := by
  rintro s' rfl
  exact h s' holds

/-- What is attained can be weakened, and the failures that are allowed can be more. -/
theorem weaken {Q' : α → σ → Prop} {E' : Error → Prop} (h : Attains P work Q E)
    (more : ∀ a s, Q a s → Q' a s) (allowed : ∀ e, E e → E' e) : Attains P work Q' E' := by
  intro s holds
  have outcome := h s holds
  cases done : work.run s with
  | mk result s' =>
    rw [done] at outcome
    cases result with
    | ok a => exact more a s' outcome
    | error e => exact allowed e outcome

theorem liftExcept {result : Except Error α} (done : ∀ a s, result = .ok a → P s → Q a s)
    (failed : ∀ e, result = .error e → E e) :
    Attains P (MonadLift.monadLift result : ExceptT Error (StateM σ) α) Q E := by
  intro s holds
  rw [run_liftExcept]
  cases result with
  | ok a => exact done a s rfl holds
  | error e => exact failed e rfl

/-- Work on the state that does not fail. -/
theorem liftState {work : StateM σ α} (done : ∀ s, P s → Q (work s).1 (work s).2) :
    Attains P (MonadLift.monadLift work : ExceptT Error (StateM σ) α) Q E :=
  done

end Attains

end ScoreScript
