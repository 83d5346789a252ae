import ScoreScript.Proofs.Sandbox.Coverage
import Mathlib.Data.String.Basic
import ScoreScript.Proofs.Run.Conduct

/-!
The declarative fragment of scripts: calls, literals, names and nested `with` blocks. It is
defined on the tree alone, and `Node.inFragment_iff` shows that it is what remains when only the
allowed kinds of syntax may occur.
-/

namespace ScoreScript.Script

/-- Names and tuples may be read and stored to, not deleted. -/
def Use.IsPlain : Use → Prop
  | .load => True
  | .store => True
  | .del => False

mutual

def Expr.InFragment : Expr → Prop
  | .constant _ _ => True
  | .name _ use _ => use.IsPlain
  | .tuple items use _ => use.IsPlain ∧ exprsInFragment items
  | .unary op operand _ => op = .minus ∧ operand.InFragment
  | .call callee args keywords _ =>
    callee.InFragment ∧ exprsInFragment args ∧ keywordsInFragment keywords
  | _ => False

def exprsInFragment : List Expr → Prop
  | [] => True
  | e :: rest => e.InFragment ∧ exprsInFragment rest

def keywordsInFragment : List KeywordArg → Prop
  | [] => True
  | .mk _ value _ :: rest => value.InFragment ∧ keywordsInFragment rest

end

def itemsInFragment : List WithItem → Prop
  | [] => True
  | item :: rest =>
    item.context.InFragment ∧ exprsInFragment item.target.toList ∧ itemsInFragment rest

mutual

def Stmt.InFragment : Stmt → Prop
  | .expr value _ => value.InFragment
  | .pass _ => True
  | .withStmt items body _ => itemsInFragment items ∧ bodyInFragment body
  | _ => False

def bodyInFragment : List Stmt → Prop
  | [] => True
  | s :: rest => s.InFragment ∧ bodyInFragment rest

end

/-- The whole script is in the fragment, and calls nothing that looks like a host function. -/
def Module.IsDeclarative (m : Module) : Prop :=
  bodyInFragment m.body ∧ ∀ name, m.Shows (.call name) → isHostName name = false

/-! ### The fragment, one node at a time -/

theorem exprsInFragment_iff (items : List Expr) :
    exprsInFragment items ↔ ∀ e ∈ items, e.InFragment := by
  induction items with
  | nil => simp [exprsInFragment]
  | cons e rest ih => simp [exprsInFragment, ih]

theorem keywordsInFragment_iff (keywords : List KeywordArg) :
    keywordsInFragment keywords ↔ ∀ k ∈ keywords, k.value.InFragment := by
  induction keywords with
  | nil => simp [keywordsInFragment]
  | cons k rest ih =>
    cases k
    simp [keywordsInFragment, ih, KeywordArg.value]

theorem itemsInFragment_iff (items : List WithItem) :
    itemsInFragment items ↔
      ∀ i ∈ items, i.context.InFragment ∧ ∀ e ∈ i.target, e.InFragment := by
  induction items with
  | nil => simp [itemsInFragment]
  | cons i rest ih => simp [itemsInFragment, exprsInFragment_iff, ih, and_assoc]

theorem bodyInFragment_iff (body : List Stmt) :
    bodyInFragment body ↔ ∀ s ∈ body, s.InFragment := by
  induction body with
  | nil => simp [bodyInFragment]
  | cons s rest ih => simp [bodyInFragment, ih]

/-- Whatever is not a statement or an expression, a keyword or an item stays outside. -/
def Node.InFragment : Node → Prop
  | .stmt s => s.InFragment
  | .expr e => e.InFragment
  | .keyword k => k.value.InFragment
  | .item i => i.context.InFragment ∧ ∀ e ∈ i.target, e.InFragment
  | _ => False

/-- The node itself is of an allowed kind, and so are the use and the operator it shows. -/
def Node.OwnAllowed (n : Node) : Prop :=
  ∀ k, .kind k ∈ n.own → k ∈ allowedKinds

theorem Use.isPlain_iff (use : Use) : use.IsPlain ↔ use.kind ∈ allowedKinds := by
  cases use <;> simp [IsPlain, Use.kind, allowedKinds]

theorem UnaryOperator.eq_minus_iff (op : UnaryOperator) :
    op = .minus ↔ op.kind ∈ allowedKinds := by
  cases op <;> simp [UnaryOperator.kind, allowedKinds]

/-- Leaving the fragment is always seen at the expression itself: its kind is not allowed. -/
theorem Expr.inFragment_step (e : Expr) :
    e.InFragment ↔ (Node.expr e).OwnAllowed ∧ ∀ q ∈ e.parts, q.InFragment := by
  cases e with
  | constant value span => simp [InFragment, Node.OwnAllowed, Node.own, kind, marks, parts,
      allowedKinds]
  | name id use span =>
    simp [InFragment, Node.OwnAllowed, Node.own, kind, marks, parts, use.isPlain_iff,
      show NodeKind.name ∈ allowedKinds by decide]
  | tuple items use span =>
    simp [InFragment, Node.OwnAllowed, Node.own, kind, marks, parts, use.isPlain_iff,
      exprsInFragment_iff, Node.InFragment, show NodeKind.tuple ∈ allowedKinds by decide]
  | unary op operand span =>
    simp [InFragment, Node.OwnAllowed, Node.own, kind, marks, parts, op.eq_minus_iff,
      Node.InFragment, show NodeKind.unaryOp ∈ allowedKinds by decide]
  | call callee args keywords span =>
    simp [InFragment, Node.OwnAllowed, Node.own, kind, marks, parts, exprsInFragment_iff,
      keywordsInFragment_iff, Node.InFragment, or_imp, forall_and, allowedKinds]
  | _ => simp [InFragment, Node.OwnAllowed, Node.own, kind, allowedKinds]

theorem Stmt.inFragment_step (s : Stmt) :
    s.InFragment ↔ (Node.stmt s).OwnAllowed ∧ ∀ q ∈ s.parts, q.InFragment := by
  cases s with
  | expr value span =>
    simp [InFragment, Node.OwnAllowed, Node.own, kind, parts, Node.InFragment, allowedKinds]
  | pass span => simp [InFragment, Node.OwnAllowed, Node.own, kind, parts, allowedKinds]
  | withStmt items body span =>
    simp [InFragment, Node.OwnAllowed, Node.own, kind, parts, itemsInFragment_iff,
      bodyInFragment_iff, Node.InFragment, or_imp, forall_and, allowedKinds]
  | _ => simp [InFragment, Node.OwnAllowed, Node.own, kind, allowedKinds]

theorem Node.inFragment_step (n : Node) :
    n.InFragment ↔ n.OwnAllowed ∧ ∀ q ∈ n.parts, q.InFragment := by
  cases n with
  | stmt s => exact s.inFragment_step
  | expr e => exact e.inFragment_step
  | keyword k =>
    cases k
    simp [InFragment, OwnAllowed, own, parts, KeywordArg.value, allowedKinds]
  | item i => simp [InFragment, OwnAllowed, own, parts, allowedKinds]
  | _ => simp [InFragment, OwnAllowed, own, allowedKinds]

theorem Node.InFragment.of_within {n p : Node} (inside : n.InFragment) (within : Within n p) :
    p.InFragment := by
  induction within with
  | self => exact inside
  | part direct _ ih => exact ih (((Node.inFragment_step _).1 inside).2 _ direct)

/-- The fragment is what is built from allowed kinds of syntax only. -/
theorem Node.inFragment_iff (n : Node) :
    n.InFragment ↔ ∀ p, Within n p → p.OwnAllowed := by
  induction n using Node.induction with
  | step n ih =>
    rw [n.inFragment_step]
    constructor
    · rintro ⟨own, parts⟩ p within
      rcases within_iff.1 within with rfl | ⟨q, direct, below⟩
      · exact own
      · exact (ih q direct).1 (parts q direct) p below
    · intro all
      refine ⟨all n (.self n), fun q direct => (ih q direct).2 ?_⟩
      intro p below
      exact all p (.part direct below)

/-- A script is in the fragment exactly if nothing in it is of a kind that is not allowed. -/
theorem bodyInFragment_iff_shows (m : Module) :
    bodyInFragment m.body ↔ ∀ k, m.Shows (.kind k) → k ∈ allowedKinds := by
  rw [bodyInFragment_iff]
  constructor
  · rintro inside k (same | ⟨s, member, n, within, shown⟩)
    · cases same
      decide
    · exact (Node.inFragment_iff (.stmt s)).1 (inside s member) n within k shown
  · intro allowed s member
    refine (Node.inFragment_iff (.stmt s)).2 ?_
    intro n within k shown
    exact allowed k (.inr ⟨s, member, n, within, shown⟩)

/-!
The sandbox is exact. Its verdict lists what occurs anywhere in a script and must not, each
thing once and in order; it is empty exactly for the declarative scripts; and only those run.
-/

/-! ### Lists in order, without repetitions -/

private theorem eraseReps_loop {α : Type} (r : α → α → Bool) (a : α) (as acc : List α) :
    List.eraseRepsBy.loop r a as acc = acc.reverse ++ List.eraseRepsBy.loop r a as [] := by
  induction as generalizing a acc with
  | nil => simp [List.eraseRepsBy.loop]
  | cons b as ih =>
    unfold List.eraseRepsBy.loop
    split
    · exact ih a acc
    · rw [ih b (a :: acc), ih b [a]]
      simp

private theorem eraseReps_cons_cons (a b : String) (as : List String) :
    (a :: b :: as).eraseReps =
      if a = b then (a :: as).eraseReps else a :: (b :: as).eraseReps := by
  have unfolded : (a :: b :: as).eraseReps =
      if a == b then List.eraseRepsBy.loop (· == ·) a as []
      else List.eraseRepsBy.loop (· == ·) b as [a] := by
    cases same : a == b <;> simp [List.eraseReps, List.eraseRepsBy, List.eraseRepsBy.loop, same]
  rw [unfolded, eraseReps_loop (· == ·) b as [a]]
  simp only [beq_iff_eq]
  rfl

theorem mem_eraseReps {name : String} (names : List String) :
    name ∈ names.eraseReps ↔ name ∈ names := by
  induction names with
  | nil => exact Iff.rfl
  | cons a rest ih =>
    cases rest with
    | nil => exact Iff.rfl
    | cons b rest =>
      rw [eraseReps_cons_cons]
      by_cases same : a = b
      · subst same
        rw [if_pos rfl, ih]
        simp
      · rw [if_neg same, List.mem_cons, ih, List.mem_cons (a := name) (b := a)]

/-- Once repetitions are gone, what was in order ascends strictly. -/
theorem pairwise_eraseReps {names : List String} (sorted : names.Pairwise (· ≤ ·)) :
    names.eraseReps.Pairwise (· < ·) := by
  induction names with
  | nil => exact .nil
  | cons a rest ih =>
    cases rest with
    | nil => exact List.pairwise_singleton _ _
    | cons b rest =>
      obtain ⟨least, later⟩ := List.pairwise_cons.1 sorted
      rw [eraseReps_cons_cons]
      by_cases same : a = b
      · subst same
        rw [if_pos rfl]
        exact ih later
      · rw [if_neg same]
        refine List.pairwise_cons.2 ⟨?_, ih later⟩
        intro name member
        have first : a < b := lt_of_le_of_ne (least b (by simp)) same
        rcases List.mem_cons.1 ((mem_eraseReps _).1 member) with rfl | deeper
        · exact first
        · exact first.trans_le ((List.pairwise_cons.1 later).1 name deeper)

theorem mem_inOrderOnce {name : String} (names : List String) :
    name ∈ inOrderOnce names ↔ name ∈ names := by
  rw [inOrderOnce, mem_eraseReps, List.mem_mergeSort]

theorem pairwise_inOrderOnce (names : List String) :
    (inOrderOnce names).Pairwise (· < ·) := by
  have notAfter (a b : String) : (!decide (b < a)) = true ↔ a ≤ b := by
    rw [Bool.not_eq_true', decide_eq_false_iff_not, not_lt]
  have sorted : (names.mergeSort fun a b => !decide (b < a)).Pairwise
      fun a b => (!decide (b < a)) = true := by
    apply List.pairwise_mergeSort
    · intro a b c ab bc
      exact (notAfter a c).2 (((notAfter a b).1 ab).trans ((notAfter b c).1 bc))
    · intro a b
      rw [Bool.or_eq_true, notAfter, notAfter]
      exact le_total a b
  exact pairwise_eraseReps (sorted.imp fun {a b} => (notAfter a b).1)

/-! ### The verdict -/

variable (m : Module)

theorem Module.mem_verdict_kinds (k : NodeKind) :
    k ∈ m.verdict.kinds ↔ m.Shows (.kind k) ∧ k ∉ allowedKinds := by
  have met : k ∈ m.events.filterMap Event.kind? ↔ m.Shows (.kind k) := by
    rw [← m.mem_events_iff_shows, List.mem_filterMap, List.mem_map]
    refine exists_congr fun event => and_congr_right fun _ => ?_
    cases event <;> simp [Event.kind?, Event.finding]
  simp [Module.verdict, NodeKind.mem_all, ← met]

theorem Module.mem_verdict_calls (name : String) :
    name ∈ m.verdict.calls ↔ m.Shows (.call name) ∧ isHostName name = true := by
  have met : name ∈ m.events.filterMap Event.callee? ↔ m.Shows (.call name) := by
    rw [← m.mem_events_iff_shows, List.mem_filterMap, List.mem_map]
    refine exists_congr fun event => and_congr_right fun _ => ?_
    cases event <;> simp [Event.callee?, Event.finding]
  change name ∈ inOrderOnce ((m.events.filterMap Event.callee?).filter isHostName) ↔ _
  rw [mem_inOrderOnce, List.mem_filter, met]

/-- A script is accepted exactly if it is declarative. -/
theorem Module.isAccepted_iff_isDeclarative : m.verdict.isAccepted = true ↔ m.IsDeclarative := by
  have kinds : m.verdict.kinds = [] ↔ bodyInFragment m.body := by
    rw [bodyInFragment_iff_shows, List.eq_nil_iff_forall_not_mem]
    refine forall_congr' fun k => ?_
    rw [m.mem_verdict_kinds, not_and, not_not]
  have calls : m.verdict.calls = [] ↔ ∀ name, m.Shows (.call name) → isHostName name = false := by
    rw [List.eq_nil_iff_forall_not_mem]
    refine forall_congr' fun name => ?_
    rw [m.mem_verdict_calls, not_and, Bool.not_eq_true]
  rw [Verdict.isAccepted, Bool.and_eq_true, List.isEmpty_iff, List.isEmpty_iff, kinds, calls]
  rfl

/-- What is accepted runs, and a run refuses nothing; what is not accepted is refused with the
whole verdict, before any tag is looked up. -/
theorem Module.run_accepted_or_refused (kit : Kit) (registry : Registry) :
    m.IsDeclarative ∧
        (∀ e, (Run.ofModule kit registry m).1 = .error e → e.cause.OfRun) ∨
      ¬ m.IsDeclarative ∧ Run.ofModule kit registry m =
        (.error (.bare (.rejected ⟨m.verdict.kinds, m.verdict.calls⟩)), registry) := by
  by_cases accepted : m.IsDeclarative
  · refine .inl ⟨accepted, ?_⟩
    intro e failed
    have passed : m.verdict.check = .ok () := by
      rw [Verdict.check, if_pos ((m.isAccepted_iff_isDeclarative).2 accepted)]
    rw [Run.ofModule, passed] at failed
    exact Run.whole_fails kit m _ e failed
  · refine .inr ⟨accepted, ?_⟩
    have refused : m.verdict.check =
        .error (.bare (.rejected ⟨m.verdict.kinds, m.verdict.calls⟩)) := by
      rw [Verdict.check, if_neg (mt (m.isAccepted_iff_isDeclarative).1 accepted)]
    rw [Run.ofModule, refused]

/-- The sandbox is exact: it accepts the declarative scripts, its verdict on any script lists
what occurs in it outside the policy, and that verdict alone decides whether the script runs. -/
theorem sandbox_exact :
    (m.verdict.isAccepted = true ↔ m.IsDeclarative) ∧
    (∀ k, k ∈ m.verdict.kinds ↔ m.Shows (.kind k) ∧ k ∉ allowedKinds) ∧
    (∀ name, name ∈ m.verdict.calls ↔ m.Shows (.call name) ∧ isHostName name = true) ∧
    m.verdict.kinds.Sublist NodeKind.all ∧ m.verdict.calls.Pairwise (· < ·) ∧
    ∀ kit registry,
      m.IsDeclarative ∧
          (∀ e, (Run.ofModule kit registry m).1 = .error e → e.cause.OfRun) ∨
        ¬ m.IsDeclarative ∧ Run.ofModule kit registry m =
          (.error (.bare (.rejected ⟨m.verdict.kinds, m.verdict.calls⟩)), registry) := by
  refine ⟨m.isAccepted_iff_isDeclarative, m.mem_verdict_kinds, m.mem_verdict_calls, ?_, ?_, ?_⟩
  · exact List.filter_sublist
  · exact pairwise_inOrderOnce _
  · exact m.run_accepted_or_refused

end ScoreScript.Script
