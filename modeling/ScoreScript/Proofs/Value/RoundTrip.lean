import Mathlib.Data.List.Forall2
import ScoreScript.Proofs.Stateful
import ScoreScript.Run.Basic
import ScoreScript.Proofs.Printing.Printer
import ScoreScript.Proofs.Printing.RoundTrip

/-!
Evaluation that leaves the run as it is: names that are known, and lists of expressions and of
arguments whose values are.
-/

namespace ScoreScript.Run

open Script (Expr KeywordArg)

variable {kit : Kit} {s : Session}

theorem run_lookUp {id : String} {v : Value} (found : Assoc.get? s.bindings id = some v)
    (span : Span) : (lookUp id span).run s = (.ok v, s) := by
  rw [lookUp, run_bind_ok (run_get s), found]
  rfl

/-- The expression has this value here, and nothing happens when it is evaluated. -/
def Denotes (kit : Kit) (s : Session) (v : Value) (e : Expr) : Prop :=
  (evaluate kit e).run s = (.ok v, s)

theorem run_evaluateAll {vs : List Value} {es : List Expr}
    (h : List.Forall₂ (Denotes kit s) vs es) : (evaluateAll kit es).run s = (.ok vs, s) := by
  induction h with
  | nil => rfl
  | cons first _ ih =>
    rw [evaluateAll, run_bind_ok first, run_bind_ok ih]
    rfl

/-- The argument has this name, and its value is this one. -/
def DenotesArgument (kit : Kit) (s : Session) (entry : String × Value) (k : KeywordArg) : Prop :=
  k.name = some entry.1 ∧ Denotes kit s entry.2 k.value

theorem run_evaluateNamed {named : List (String × Value)} {keywords : List KeywordArg}
    (h : List.Forall₂ (DenotesArgument kit s) named keywords) :
    (evaluateNamed kit keywords).run s = (.ok named, s) := by
  induction h with
  | nil => rfl
  | @cons entry k _ _ first _ ih =>
    obtain ⟨name, value, span⟩ := k
    obtain ⟨rfl, first⟩ := first
    change Denotes kit s entry.2 value at first
    rw [evaluateNamed, run_bind_ok first, run_bind_ok ih]
    rfl

/-- A call of the helper is the bundle of its arguments. -/
theorem denotes_bundle {id : String} {positional : List Value} {named : List (String × Value)}
    {args : List Expr} {keywords : List KeywordArg}
    (found : Assoc.get? s.bindings id = some .helper)
    (all : List.Forall₂ (Denotes kit s) positional args)
    (fields : List.Forall₂ (DenotesArgument kit s) named keywords) (use : Script.Use)
    (place span : Span) :
    Denotes kit s (.bundle ⟨positional, named⟩)
      (.call (.name id use place) args keywords span) := by
  have evaluated : (evaluateAll kit args >>= fun positional => do
      return (⟨positional, ← evaluateNamed kit keywords⟩ : Arguments)).run s =
      (.ok ⟨positional, named⟩, s) := by
    rw [run_bind_ok (run_evaluateAll all), run_bind_ok (run_evaluateNamed fields)]
    rfl
  rw [Denotes, evaluate, evaluate, run_bind_ok (run_lookUp found place), call,
    run_bind_ok evaluated]
  rfl

end ScoreScript.Run

/-!
Values are shown as scripts that evaluate to them. A value that a script can write has an expression
that writes it, and the text of the value is the text of that expression. Inside a container it is
read as one expression, which the sandbox accepts, and at the start of any run that expression has
the value again.
-/

namespace ScoreScript.Value

open Script (Expr KeywordArg IsFreeName printAll printKeywords tupleText)

/-- Literals but for floating point numbers and bytes, and tuples and bundles of such values. The
least integer cannot be written, as there is no integer with the other sign. -/
inductive Written : Value → Prop where
  | none : Written .none
  | bool (b : Bool) : Written (.bool b)
  | int {n : Int} (above : -(twoTo 63 : Int) < n) (below : n < twoTo 63) : Written (.int n)
  | str (s : String) : Written (.str s)
  | tuple {items : List Value} (all : ∀ v ∈ items, Written v) : Written (.tuple items)
  | bundle {positional : List Value} {named : List (String × Value)}
      (all : ∀ v ∈ positional, Written v) (values : ∀ entry ∈ named, Written entry.2)
      (names : ∀ entry ∈ named, IsFreeName entry.1) (distinct : (Assoc.keys named).Nodup) :
      Written (.bundle ⟨positional, named⟩)

mutual

/-- The expression that writes a value; values that no script writes have none of their own. -/
def toExpr : Value → Expr
  | .bool b => .constant (.bool b) .nowhere
  | .int (.ofNat n) => .constant (.int n) .nowhere
  | .int (.negSucc n) => .unary .minus (.constant (.int (n + 1 : Nat)) .nowhere) .nowhere
  | .str s => .constant (.str s) .nowhere
  | .tuple items => .tuple (toExprs items) .load .nowhere
  | .bundle ⟨positional, named⟩ =>
    .call (.name Bindings.helperName .load .nowhere) (toExprs positional) (toKeywords named)
      .nowhere
  | _ => .constant .none .nowhere

def toExprs : List Value → List Expr
  | [] => []
  | v :: rest => v.toExpr :: toExprs rest

def toKeywords : List (String × Value) → List KeywordArg
  | [] => []
  | (name, v) :: rest => .mk (some name) v.toExpr .nowhere :: toKeywords rest

end

theorem toExprs_eq_map (items : List Value) : toExprs items = items.map toExpr := by
  induction items with
  | nil => rfl
  | cons v rest ih => rw [toExprs, ih, List.map_cons]

theorem toKeywords_eq_map (named : List (String × Value)) :
    toKeywords named = named.map fun entry => .mk (some entry.1) entry.2.toExpr .nowhere := by
  induction named with
  | nil => rfl
  | cons entry rest ih => rw [toKeywords, ih, List.map_cons]

/-! ### Texts -/

theorem texts_eq_map (items : List Value) : texts items = items.map literal := by
  induction items with
  | nil => rfl
  | cons v rest ih => rw [texts, ih, List.map_cons, literal]

theorem entryTexts_eq_map (named : List (String × Value)) :
    entryTexts false named = named.map fun entry => entry.1 ++ "=" ++ entry.2.literal := by
  induction named with
  | nil => rfl
  | cons entry rest ih =>
    rw [entryTexts, ih, List.map_cons]
    rfl

theorem literal_tuple (items : List Value) :
    (Value.tuple items).literal = "(" ++ tupleText (items.map literal) ++ ")" := by
  rw [literal, text, texts_eq_map]
  match items with
  | [] => rfl
  | [only] => simp [tupleText, String.append_assoc]
  | first :: second :: more => rfl

/-- The text of a value is that of its expression. -/
theorem Written.print_toExpr {v : Value} (h : v.Written) : v.toExpr.print = v.literal := by
  induction h with
  | none => rfl
  | bool b => cases b <;> rfl
  | @int n above below => cases n <;> rfl
  | str s => rfl
  | @tuple items all ih =>
    have inner : printAll (toExprs items) = items.map literal := by
      rw [toExprs_eq_map, Script.printAll_eq_map, List.map_map]
      exact List.map_congr_left ih
    rw [toExpr, Expr.print, inner, literal_tuple]
  | @bundle positional named all values names distinct args fields =>
    have inner : printAll (toExprs positional) = positional.map literal := by
      rw [toExprs_eq_map, Script.printAll_eq_map, List.map_map]
      exact List.map_congr_left args
    have keywords : printKeywords (toKeywords named) =
        named.map fun entry => entry.1 ++ "=" ++ entry.2.literal := by
      rw [toKeywords_eq_map, Script.printKeywords_eq_map, List.map_map]
      exact List.map_congr_left fun entry member =>
        congrArg (entry.1 ++ "=" ++ ·) (fields entry member)
    have opening : "_" ++ "(" = "_(" := rfl
    rw [toExpr, Expr.print, inner, keywords, literal, text, texts_eq_map, entryTexts_eq_map,
      ← opening]
    simp only [String.append_assoc]
    rfl

/-- The expression of a value is one that is written. -/
theorem Written.printable {v : Value} (h : v.Written) : v.toExpr.Printable := by
  induction h with
  | none => exact .constant .none
  | bool b => exact .constant (.bool b)
  | @int n above below =>
    cases n with
    | ofNat n => exact .constant (.int (Int.ofNat_lt.1 below))
    | negSucc n => exact .minus (.constant (.int (by simp only [Int.negSucc_eq] at above; omega)))
  | str s => exact .constant (.str s)
  | @tuple items all ih =>
    rw [toExpr, toExprs_eq_map]
    exact .tuple (List.forall_mem_map.2 ih)
  | @bundle positional named all values names distinct args fields =>
    rw [toExpr, toExprs_eq_map, toKeywords_eq_map]
    refine .call (.name ⟨by decide, by decide⟩) (List.forall_mem_map.2 args)
      (List.forall_mem_map.2 fields) (List.forall_mem_map.2 fun entry member => ?_) ?_
    · rintro id ⟨⟩
      exact names entry member
    · have same : (named.map fun entry => KeywordArg.mk (some entry.1) entry.2.toExpr .nowhere).filterMap
          (·.name) = Assoc.keys named := by
        rw [List.filterMap_map, Assoc.keys, ← List.filterMap_eq_map]
        rfl
      rwa [same]

end ScoreScript.Value

namespace ScoreScript

namespace Script.Expr

variable {e : Expr}

/-! ### Trees that are the same up to places -/

theorem Same.eq_constant {value : Constant} {span : Span} (h : Same (.constant value span) e) :
    ∃ span', e = .constant value span' := by
  cases e <;> simp [Same, unplaced] at h
  exact ⟨_, by rw [h]⟩

theorem Same.eq_name {id : String} {use : Use} {span : Span} (h : Same (.name id use span) e) :
    ∃ span', e = .name id use span' := by
  cases e <;> simp [Same, unplaced] at h
  exact ⟨_, by rw [h.1, h.2]⟩

theorem Same.eq_unary {op : UnaryOperator} {operand : Expr} {span : Span}
    (h : Same (.unary op operand span) e) :
    ∃ operand' span', e = .unary op operand' span' ∧ operand.Same operand' := by
  cases e <;> simp [Same, unplaced] at h
  exact ⟨_, _, by rw [h.1], h.2⟩

theorem forall₂_of_map_eq_map {α β γ : Type} {f : α → γ} {g : β → γ} {as : List α} {bs : List β}
    (h : bs.map g = as.map f) : List.Forall₂ (fun a b => g b = f a) as bs := by
  rw [← List.forall₂_eq_eq_eq, List.forall₂_map_left_iff, List.forall₂_map_right_iff] at h
  exact h.flip

theorem Same.eq_tuple {items : List Expr} {use : Use} {span : Span}
    (h : Same (.tuple items use span) e) :
    ∃ items' span', e = .tuple items' use span' ∧ List.Forall₂ Same items items' := by
  cases e <;> simp [Same, unplaced] at h
  rw [unplacedAll_eq_map, unplacedAll_eq_map] at h
  exact ⟨_, _, by rw [h.2], forall₂_of_map_eq_map h.1⟩

/-- The arguments are the same up to places. -/
def SameArgument (k other : KeywordArg) : Prop :=
  other.name = k.name ∧ k.value.Same other.value

theorem Same.eq_call {callee : Expr} {args : List Expr} {keywords : List KeywordArg} {span : Span}
    (h : Same (.call callee args keywords span) e) :
    ∃ callee' args' keywords' span', e = .call callee' args' keywords' span' ∧
      callee.Same callee' ∧ List.Forall₂ Same args args' ∧
      List.Forall₂ SameArgument keywords keywords' := by
  cases e <;> simp [Same, unplaced] at h
  rw [unplacedAll_eq_map, unplacedAll_eq_map, unplacedKeywords_eq_map,
    unplacedKeywords_eq_map] at h
  refine ⟨_, _, _, _, rfl, h.1, forall₂_of_map_eq_map h.2.1,
    (forall₂_of_map_eq_map h.2.2).imp fun k other same => ?_⟩
  obtain ⟨name, value, span⟩ := k
  obtain ⟨name', value', span'⟩ := other
  injection same with named same
  exact ⟨named, same⟩

end Script.Expr

namespace Value

open Script (Expr KeywordArg)
open Run (Denotes DenotesArgument)

variable {v : Value} {e : Expr} {kit : Kit} {s : Session}

theorem denotes_all {items : List Value} {es : List Expr}
    (all : ∀ v ∈ items, ∀ e, v.toExpr.Same e → Denotes kit s v e)
    (same : List.Forall₂ Expr.Same (items.map toExpr) es) :
    List.Forall₂ (Denotes kit s) items es :=
  ((List.forall₂_and_left _ _).2 ⟨all, List.forall₂_map_left_iff.1 same⟩).imp
    fun _ e found => found.1 e found.2

theorem denotes_arguments {named : List (String × Value)} {keywords : List KeywordArg}
    (all : ∀ entry ∈ named, ∀ e, entry.2.toExpr.Same e → Denotes kit s entry.2 e)
    (same : List.Forall₂ Expr.SameArgument
      (named.map fun entry => .mk (some entry.1) entry.2.toExpr .nowhere) keywords) :
    List.Forall₂ (DenotesArgument kit s) named keywords :=
  ((List.forall₂_and_left _ _).2 ⟨all, List.forall₂_map_left_iff.1 same⟩).imp
    fun _ k found => ⟨found.2.1, found.1 k.value found.2.2⟩

/-- Wherever the helper is known, the expression of a value has that value. -/
theorem Written.denotes (h : v.Written)
    (known : Assoc.get? s.bindings Bindings.helperName = some .helper)
    (same : v.toExpr.Same e) : Denotes kit s v e := by
  induction h generalizing e with
  | none =>
    obtain ⟨span, rfl⟩ := same.eq_constant
    rfl
  | bool b =>
    obtain ⟨span, rfl⟩ := same.eq_constant
    rfl
  | @int n above below =>
    cases n with
    | ofNat n =>
      obtain ⟨span, rfl⟩ := same.eq_constant
      rfl
    | negSucc n =>
      obtain ⟨operand, span, rfl, inner⟩ := same.eq_unary
      obtain ⟨span', rfl⟩ := inner.eq_constant
      have other : ((n + 1 : Nat) : Int) ≠ -(twoTo 63 : Int) := by omega
      rw [Denotes, Run.evaluate, Run.evaluate, Run.constantValue, pure_bind, Run.negate,
        if_neg other]
      rfl
  | str s =>
    obtain ⟨span, rfl⟩ := same.eq_constant
    rfl
  | @tuple items all ih =>
    rw [toExpr, toExprs_eq_map] at same
    obtain ⟨items', span, rfl, each⟩ := same.eq_tuple
    have values := denotes_all (fun v member e => ih v member) each
    rw [Denotes, Run.evaluate, run_bind_ok (Run.run_evaluateAll values)]
    rfl
  | @bundle positional named all values names distinct args fields =>
    rw [toExpr, toExprs_eq_map, toKeywords_eq_map] at same
    obtain ⟨callee, args', keywords, span, rfl, helper, each, arguments⟩ := same.eq_call
    obtain ⟨place, rfl⟩ := helper.eq_name
    exact Run.denotes_bundle known (denotes_all (fun v member e => args v member) each)
      (denotes_arguments (fun entry member e => fields entry member) arguments) .load place span

/-! ### The sandbox -/

/-- Only the helper is called in the expression of a value. -/
theorem Written.calls_helper (h : v.Written) {name : String}
    (called : .call name ∈ v.toExpr.events.findings) : name = Bindings.helperName := by
  induction h with
  | none => simp [toExpr, Expr.events] at called
  | bool b => simp [toExpr, Expr.events] at called
  | @int n above below => cases n <;> simp [toExpr, Expr.events] at called
  | str s => simp [toExpr, Expr.events] at called
  | @tuple items all ih =>
    rw [toExpr, toExprs_eq_map] at called
    simp only [Expr.events, Script.Trace.findings_append, Script.Trace.findings_kind,
      List.mem_append, List.mem_singleton, reduceCtorEq, false_or, or_false, Script.mem_eventsAll,
      List.mem_map, exists_exists_and_eq_and] at called
    obtain ⟨v, member, called⟩ := called
    exact ih v member called
  | @bundle positional named all values names distinct args fields =>
    rw [toExpr, toExprs_eq_map, toKeywords_eq_map] at called
    simp only [Expr.events, Script.Trace.findings_append, Script.Trace.findings_kind,
      Script.Trace.findings_call, List.mem_append, List.mem_singleton, reduceCtorEq, false_or,
      or_false, Script.mem_eventsAll, Script.mem_keywordEvents, List.mem_map,
      exists_exists_and_eq_and, Script.Finding.call.injEq] at called
    rcases called with (helper | ⟨v, member, called⟩) | ⟨entry, member, called⟩
    · exact helper
    · exact args v member called
    · refine fields entry member ?_
      simpa only [Script.Node.events, Script.keywordEvents, Script.Trace.findings_append,
        Script.Trace.findings_kind, Script.Trace.findings_nothing, List.mem_append,
        List.mem_singleton, reduceCtorEq, false_or, List.not_mem_nil, or_false] using called

/-- The sandbox accepts the expression of a value. -/
theorem Written.isAccepted (h : v.Written) (same : v.toExpr.Same e) (span : Span) :
    (⟨[.expr e span]⟩ : Script.Module).verdict.isAccepted = true := by
  have unplaced : (⟨[.expr e span]⟩ : Script.Module).unplaced =
      (⟨[.expr v.toExpr .nowhere]⟩ : Script.Module).unplaced := by
    have same : e.unplaced = v.toExpr.unplaced := same
    simp only [Script.Module.unplaced, List.map_cons, Script.Stmt.unplaced, same]
  rw [Script.Module.isAccepted_iff_isDeclarative, ← Script.Module.isDeclarative_unplaced, unplaced,
    Script.Module.isDeclarative_unplaced]
  refine ⟨⟨h.printable.inFragment, trivial⟩, fun name shown => ?_⟩
  rw [← Script.Module.mem_events_iff_shows] at shown
  change .call name ∈ (Script.Trace.kind .module _ ++
    Script.bodyEvents [.expr v.toExpr .nowhere]).findings at shown
  simp only [Script.bodyEvents, Script.Stmt.events, Script.Trace.findings_append,
    Script.Trace.findings_kind, Script.Trace.findings_nothing, List.mem_append,
    List.mem_singleton, reduceCtorEq, false_or, List.not_mem_nil, or_false] at shown
  rw [h.calls_helper shown]
  decide

/-- Values are shown as scripts that evaluate to them. The text of a value inside a container, taken
as a script, is one expression that the sandbox accepts; at the start of a run, whatever the
catalogue, that expression has this value, and the run stays as it is. -/
theorem ofText_literal (h : v.Written) :
    ∃ e span, Script.Module.ofText .unlimited v.literal = .ok ⟨[.expr e span]⟩ ∧
      (⟨[.expr e span]⟩ : Script.Module).verdict.isAccepted = true ∧
      ∀ (kit : Kit) (assembly : Assembly),
        (Run.evaluate kit e).run ⟨.start kit.catalogue, assembly⟩ =
          (.ok v, ⟨.start kit.catalogue, assembly⟩) := by
  obtain ⟨e, span, read, same⟩ := h.printable.ofText_alone
  rw [h.print_toExpr] at read
  refine ⟨e, span, read, h.isAccepted same span, fun kit assembly => ?_⟩
  have known : Assoc.get? (Bindings.start kit.catalogue) Bindings.helperName = some .helper := by
    rw [Bindings.start, Assoc.get?_put, if_pos rfl]
  exact h.denotes (s := ⟨.start kit.catalogue, assembly⟩) known same

/-- A bundle of a tuple with a single item, a negative number and a text with a quote. -/
def shownBundle : Value :=
  .bundle ⟨[.tuple [.int (-4)], .str "it's"], [("step", .bool true), ("alter", .none)]⟩

theorem written_shownBundle : shownBundle.Written := by
  refine .bundle ?_ ?_ ?_ (by decide)
  · have first : (Value.int (-4)).Written := .int (by decide) (by decide)
    exact List.forall_mem_cons.2 ⟨.tuple (List.forall_mem_singleton.2 first),
      List.forall_mem_singleton.2 (.str "it's")⟩
  · exact List.forall_mem_cons.2 ⟨.bool true, List.forall_mem_singleton.2 .none⟩
  · exact List.forall_mem_cons.2 ⟨⟨by decide, by decide⟩,
      List.forall_mem_singleton.2 ⟨by decide, by decide⟩⟩

theorem ofText_literal_shownBundle :
    shownBundle.literal = "_((-4,), \"it's\", step=True, alter=None)" ∧
    ∃ e span, Script.Module.ofText .unlimited shownBundle.literal = .ok ⟨[.expr e span]⟩ ∧
      (⟨[.expr e span]⟩ : Script.Module).verdict.isAccepted = true ∧
      ∀ (kit : Kit) (assembly : Assembly),
        (Run.evaluate kit e).run ⟨.start kit.catalogue, assembly⟩ =
          (.ok shownBundle, ⟨.start kit.catalogue, assembly⟩) :=
  ⟨by decide +kernel, ofText_literal written_shownBundle⟩

end Value

end ScoreScript
