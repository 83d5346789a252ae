import ScoreScript.Proofs.Sandbox.Coverage
import ScoreScript.Proofs.Stateful
import ScoreScript.Script.Grammar.Basic

/-!
How deep a syntax tree nests: the length of a chain of statements and expressions, each directly
inside the one before. Some steps into a tree are loose: the reader takes them in a loop, or
without counting a level. A tree is shallow if its chains are short but for their loose steps.
-/

namespace ScoreScript.Script

def Stmt.isIf : Stmt → Bool
  | .ifStmt .. => true
  | _ => false

/-- The parts that can follow one another in a chain without end: what a call, a member or an index
is taken of, the left side of an operator, what a star holds, and the clauses of a generator. -/
def Expr.loose : Expr → List Node
  | .call callee _ _ _ => [.expr callee]
  | .member owner _ _ _ => [.expr owner]
  | .subscript owner _ _ _ => [.expr owner]
  | .binary left _ _ _ => [.expr left]
  | .starred value _ _ => [.expr value]
  | .generator _ generators _ => generators.map .comprehension
  | _ => []

/-- The other parts. -/
def Expr.held : Expr → List Node
  | .call _ args keywords _ => args.map .expr ++ keywords.map .keyword
  | .member _ _ _ _ => []
  | .subscript _ index _ _ => [.expr index]
  | .binary _ _ right _ => [.expr right]
  | .starred _ _ _ => []
  | .generator item _ _ => [.expr item]
  | e => e.parts

/-- A condition in place of another one can follow that without end. -/
def Stmt.loose : Stmt → List Node
  | .ifStmt _ _ other _ => (other.filter isIf).map .stmt
  | _ => []

def Stmt.held : Stmt → List Node
  | .ifStmt test body other _ =>
    .expr test :: (body ++ other.filter fun s => !s.isIf).map .stmt
  | s => s.parts

namespace Node

def loose : Node → List Node
  | .stmt s => s.loose
  | .expr e => e.loose
  | _ => []

def held : Node → List Node
  | .stmt s => s.held
  | .expr e => e.held
  | n => n.parts

theorem mem_parts_iff {n q : Node} : q ∈ n.parts ↔ q ∈ n.loose ∨ q ∈ n.held := by
  cases n with
  | stmt s =>
    cases s with
    | ifStmt test body other span =>
      have split (s : Stmt) :
          s ∈ other ↔ s ∈ other ∧ s.isIf = true ∨ s ∈ other ∧ s.isIf = false := by
        cases s.isIf <;> simp
      simp only [parts, Stmt.parts, loose, Stmt.loose, held, Stmt.held]
      grind
    | _ => simp [parts, loose, Stmt.loose, held, Stmt.held]
  | expr e =>
    cases e with
    | generator item generators span =>
      -- the clauses stand after the item
      simp only [parts, Expr.parts, loose, Expr.loose, held, Expr.held, List.mem_cons,
        List.not_mem_nil, or_false]
      exact or_comm
    | _ => simp [parts, Expr.parts, loose, Expr.loose, held, Expr.held]
  | _ => simp [loose, held]

/-- What a node counts for in a chain: statements and expressions count, their other parts do
not. -/
def weight : Node → Nat
  | .stmt _ => 1
  | .expr _ => 1
  | _ => 0

end Node

/-- There is a chain from the node inwards with so many loose steps and of this length. -/
inductive Chain : Node → (steps length : Nat) → Prop where
  | stop (n : Node) : Chain n 0 n.weight
  | held {n q : Node} {steps length : Nat} (direct : q ∈ n.held) (below : Chain q steps length) :
      Chain n steps (length + n.weight)
  | loose {n q : Node} {steps length : Nat} (direct : q ∈ n.loose) (below : Chain q steps length) :
      Chain n (steps + 1) (length + n.weight)

/-- Chains are no longer than that, if each loose step is allowed 20 nodes more. -/
def Node.Shallow (bound : Nat) (n : Node) : Prop :=
  ∀ steps length, Chain n steps length → length ≤ bound + 20 * steps

namespace Node

variable {b c : Nat} {n : Node}

theorem Shallow.mono (h : n.Shallow b) (le : b ≤ c) : n.Shallow c :=
  fun _ _ chain => Nat.le_trans (h _ _ chain) (Nat.add_le_add_right le _)

theorem shallow_iff : n.Shallow (b + n.weight) ↔
    (∀ q ∈ n.held, q.Shallow b) ∧ ∀ q ∈ n.loose, q.Shallow (b + 20) := by
  constructor
  · intro h
    refine ⟨fun q direct steps length below => ?_, fun q direct steps length below => ?_⟩
    · have bound := h _ _ (.held direct below)
      omega
    · have bound := h _ _ (.loose direct below)
      rw [Nat.mul_succ] at bound
      omega
  · rintro ⟨held, loose⟩ steps length chain
    cases chain with
    | stop => omega
    | held direct below =>
      have bound := held _ direct _ _ below
      omega
    | loose direct below =>
      have bound := loose _ direct _ _ below
      rw [Nat.mul_succ]
      omega

end Node

abbrev Expr.Shallow (bound : Nat) (e : Expr) : Prop :=
  (Node.expr e).Shallow bound

abbrev Stmt.Shallow (bound : Nat) (s : Stmt) : Prop :=
  (Node.stmt s).Shallow bound

theorem Expr.shallow_iff {b : Nat} {e : Expr} : e.Shallow (b + 1) ↔
    (∀ q ∈ e.held, q.Shallow b) ∧ ∀ q ∈ e.loose, q.Shallow (b + 20) :=
  Node.shallow_iff (n := .expr e)

theorem Stmt.shallow_iff {b : Nat} {s : Stmt} : s.Shallow (b + 1) ↔
    (∀ q ∈ s.held, q.Shallow b) ∧ ∀ q ∈ s.loose, q.Shallow (b + 20) :=
  Node.shallow_iff (n := .stmt s)

/-- Without loose parts. -/
theorem Expr.shallow_of_held {b : Nat} {e : Expr} (tight : e.loose = [])
    (h : ∀ q ∈ e.held, q.Shallow b) : e.Shallow (b + 1) :=
  shallow_iff.2 ⟨h, by rw [tight]; exact List.forall_mem_nil _⟩

theorem Stmt.shallow_of_held {b : Nat} {s : Stmt} (tight : s.loose = [])
    (h : ∀ q ∈ s.held, q.Shallow b) : s.Shallow (b + 1) :=
  shallow_iff.2 ⟨h, by rw [tight]; exact List.forall_mem_nil _⟩

/-- What does not count is as shallow as its parts. -/
theorem Node.shallow_iff_parts {b : Nat} {n : Node} (light : n.weight = 0) :
    n.Shallow b ↔ ∀ q ∈ n.parts, q.Shallow b := by
  have apart : n.held = n.parts ∧ n.loose = [] := by
    cases n <;> first | exact ⟨rfl, rfl⟩ | cases light
  have both := shallow_iff (b := b) (n := n)
  rw [light, apart.1, apart.2] at both
  exact both.trans ⟨And.left, fun held => ⟨held, List.forall_mem_nil _⟩⟩

theorem Node.shallow_of_parts {b : Nat} {n : Node} (light : n.weight = 0)
    (h : ∀ q ∈ n.parts, q.Shallow b) : n.Shallow b :=
  (shallow_iff_parts light).2 h

theorem forall_mem_expr {P : Node → Prop} {items : List Expr} :
    (∀ q ∈ items.map Node.expr, P q) ↔ ∀ e ∈ items, P (.expr e) :=
  List.forall_mem_map

theorem forall_mem_optional {P : Node → Prop} {item : Option Expr} :
    (∀ q ∈ item.toList.map Node.expr, P q) ↔ ∀ e ∈ item, P (.expr e) := by
  simp only [forall_mem_expr, Option.mem_toList, Option.mem_def]

/-! ### Targets -/

/-- What is true of the parts of one expression for any bound is true of those of another. -/
theorem Expr.Shallow.replace {b : Nat} {e e' : Expr} (h : e.Shallow b)
    (held : ∀ c, (∀ q ∈ e.held, q.Shallow c) → ∀ q ∈ e'.held, q.Shallow c)
    (loose : ∀ c, (∀ q ∈ e.loose, q.Shallow c) → ∀ q ∈ e'.loose, q.Shallow c) :
    e'.Shallow b := by
  have positive : 0 < b := h _ _ (.stop _)
  obtain ⟨c, rfl⟩ : ∃ c, b = c + 1 := ⟨b - 1, by omega⟩
  rw [shallow_iff] at h ⊢
  exact ⟨held c h.1, loose (c + 20) h.2⟩

mutual

/-- An expression that is put to another use has the same parts, or its parts put to that use. -/
theorem Expr.shallow_toTarget {use : Use} : (e : Expr) → ∀ {b : Nat} {target : Expr},
    e.Shallow b → e.toTarget use = .ok target → target.Shallow b
  | .name id _ span, b, target, h, found => by
    cases found
    exact h.replace (fun _ held => held) (fun _ loose => loose)
  | .member owner field _ span, b, target, h, found => by
    cases found
    exact h.replace (fun _ held => held) (fun _ loose => loose)
  | .subscript owner index _ span, b, target, h, found => by
    cases found
    exact h.replace (fun _ held => held) (fun _ loose => loose)
  | .starred value _ span, b, target, h, found => by
    rw [toTarget] at found
    obtain ⟨value', inner, ⟨⟩⟩ := ok_of_bind found
    refine h.replace (fun _ held => held) fun c loose q direct => ?_
    obtain rfl := List.mem_singleton.1 direct
    exact shallow_toTarget value (loose _ List.mem_cons_self) inner
  | .tuple items _ span, b, target, h, found => by
    rw [toTarget] at found
    obtain ⟨items', inner, ⟨⟩⟩ := ok_of_bind found
    refine h.replace (fun c held => ?_) fun _ loose => loose
    exact List.forall_mem_map.2 (shallow_toTargets items (forall_mem_expr.1 held) inner)
  | .list items _ span, b, target, h, found => by
    rw [toTarget] at found
    obtain ⟨items', inner, ⟨⟩⟩ := ok_of_bind found
    refine h.replace (fun c held => ?_) fun _ loose => loose
    exact List.forall_mem_map.2 (shallow_toTargets items (forall_mem_expr.1 held) inner)
  | .constant .., _, _, _, found | .set .., _, _, _, found | .dict .., _, _, _, found
  | .call .., _, _, _, found | .slice .., _, _, _, found | .unary .., _, _, _, found
  | .binary .., _, _, _, found | .boolean .., _, _, _, found | .compare .., _, _, _, found
  | .lambda .., _, _, _, found | .conditional .., _, _, _, found | .named .., _, _, _, found
  | .listComp .., _, _, _, found | .setComp .., _, _, _, found | .dictComp .., _, _, _, found
  | .generator .., _, _, _, found | .joined .., _, _, _, found | .formatted .., _, _, _, found
  | .await .., _, _, _, found | .yield .., _, _, _, found | .yieldFrom .., _, _, _, found => by
    cases found

theorem Expr.shallow_toTargets {use : Use} : (items : List Expr) →
    ∀ {b : Nat} {targets : List Expr}, (∀ e ∈ items, e.Shallow b) →
      toTargets use items = .ok targets → ∀ e ∈ targets, e.Shallow b
  | [], _, _, _, found => by
    cases found
    exact List.forall_mem_nil _
  | e :: rest, b, targets, h, found => by
    obtain ⟨here, later⟩ := List.forall_mem_cons.1 h
    rw [toTargets] at found
    obtain ⟨e', first, found⟩ := ok_of_bind found
    obtain ⟨rest', others, ⟨⟩⟩ := ok_of_bind found
    exact List.forall_mem_cons.2 ⟨shallow_toTarget e here first,
      shallow_toTargets rest later others⟩

end

end ScoreScript.Script
