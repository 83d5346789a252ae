import ScoreScript.Script.Verdict
import Mathlib.Tactic.Tauto

/-!
The nodes of a syntax tree, their parts, and what a policy on scripts can find in a node: its
kind, the use of a name, the operator of a unary expression, the name of what a call calls.
Nothing here follows the walk of `Module.events`: `Node.parts` lists the parts of each form of
syntax, and `Within` is what can be reached by going from nodes to parts.
-/

namespace ScoreScript.Script

/-- A node of a tree that has a kind of its own. -/
inductive Node where
  | stmt (s : Stmt)
  | expr (e : Expr)
  | keyword (k : KeywordArg)
  | comprehension (g : Comprehension)
  | parameters (ps : Parameters)
  | param (p : Param)
  | imported (a : Alias)
  | item (i : WithItem)
  | handler (h : ExceptHandler)

/-- What a policy on scripts can object to. -/
inductive Finding where
  | kind (found : NodeKind)
  | call (name : String)
  deriving DecidableEq, Repr

def DictEntry.exprs : DictEntry → List Expr
  | .pair key value => [key, value]
  | .unpack mapping => [mapping]

def Comparison.operand : Comparison → Expr
  | .mk _ operand => operand

/-- The nodes directly inside an expression. -/
def Expr.parts : Expr → List Node
  | .constant _ _ => []
  | .name _ _ _ => []
  | .tuple items _ _ => items.map .expr
  | .list items _ _ => items.map .expr
  | .set items _ => items.map .expr
  | .dict entries _ => (entries.flatMap (·.exprs)).map .expr
  | .call callee args keywords _ => .expr callee :: (args.map .expr ++ keywords.map .keyword)
  | .member owner _ _ _ => [.expr owner]
  | .subscript owner index _ _ => [.expr owner, .expr index]
  | .slice lower upper step _ => (lower.toList ++ upper.toList ++ step.toList).map .expr
  | .starred value _ _ => [.expr value]
  | .unary _ operand _ => [.expr operand]
  | .binary left _ right _ => [.expr left, .expr right]
  | .boolean _ operands _ => operands.map .expr
  | .compare left rest _ => .expr left :: (rest.map (·.operand)).map .expr
  | .lambda params body _ => [.parameters params, .expr body]
  | .conditional test body other _ => [.expr test, .expr body, .expr other]
  | .named target value _ => [.expr target, .expr value]
  | .listComp item generators _ => .expr item :: generators.map .comprehension
  | .setComp item generators _ => .expr item :: generators.map .comprehension
  | .dictComp key value generators _ =>
    .expr key :: .expr value :: generators.map .comprehension
  | .generator item generators _ => .expr item :: generators.map .comprehension
  | .joined parts _ => parts.map .expr
  | .formatted value _ spec _ => .expr value :: spec.toList.map .expr
  | .await value _ => [.expr value]
  | .yield value _ => value.toList.map .expr
  | .yieldFrom value _ => [.expr value]

/-- The nodes directly inside a statement. -/
def Stmt.parts : Stmt → List Node
  | .expr value _ => [.expr value]
  | .assign targets value _ => .expr value :: targets.map .expr
  | .annAssign target hint value _ =>
    .expr target :: .expr hint :: value.toList.map .expr
  | .augAssign target _ value _ => [.expr target, .expr value]
  | .pass _ => []
  | .breakStmt _ => []
  | .continueStmt _ => []
  | .returnStmt value _ => value.toList.map .expr
  | .delete targets _ => targets.map .expr
  | .globalStmt _ _ => []
  | .nonlocalStmt _ _ => []
  | .assertStmt test message _ => .expr test :: message.toList.map .expr
  | .raise value cause _ => (value.toList ++ cause.toList).map .expr
  | .importStmt names _ => names.map .imported
  | .importFrom _ names _ _ => names.map .imported
  | .ifStmt test body other _ => .expr test :: (body ++ other).map .stmt
  | .whileStmt test body other _ => .expr test :: (body ++ other).map .stmt
  | .forStmt target source body other _ =>
    .expr target :: .expr source :: (body ++ other).map .stmt
  | .withStmt items body _ => items.map .item ++ body.map .stmt
  | .functionDef _ params body decorators returns _ =>
    .parameters params :: ((decorators ++ returns.toList).map .expr ++ body.map .stmt)
  | .classDef _ bases keywords body decorators _ =>
    (decorators ++ bases).map .expr ++ keywords.map .keyword ++ body.map .stmt
  | .tryStmt body handlers other final _ =>
    handlers.map .handler ++ (body ++ other ++ final).map .stmt

/-- The nodes directly inside a node. -/
def Node.parts : Node → List Node
  | .stmt s => s.parts
  | .expr e => e.parts
  | .keyword (.mk _ value _) => [.expr value]
  | .comprehension (.mk target source conditions _) =>
    .expr target :: .expr source :: conditions.map .expr
  | .parameters (.mk args vararg nameOnly kwarg) =>
    (args ++ vararg.toList ++ nameOnly ++ kwarg.toList).map .param
  | .param (.mk _ hint default _) => (hint.toList ++ default.toList).map .expr
  | .imported _ => []
  | .item i => .expr i.context :: i.target.toList.map .expr
  | .handler (.mk type _ body _) => type.toList.map .expr ++ body.map .stmt

/-- What an expression shows besides its kind: the use of its value, its operator, its callee. -/
def Expr.marks : Expr → List Finding
  | .name _ use _ => [.kind use.kind]
  | .tuple _ use _ => [.kind use.kind]
  | .list _ use _ => [.kind use.kind]
  | .member _ _ use _ => [.kind use.kind]
  | .subscript _ _ use _ => [.kind use.kind]
  | .starred _ use _ => [.kind use.kind]
  | .unary op _ _ => [.kind op.kind]
  | .call callee _ _ _ => [.call (callableName callee)]
  | _ => []

/-- What can be found in a node itself, whatever its parts are. -/
def Node.own : Node → List Finding
  | .stmt s => [.kind s.kind]
  | .expr e => .kind e.kind :: e.marks
  | .keyword _ => [.kind .keyword]
  | .comprehension _ => [.kind .comprehension]
  | .parameters _ => [.kind .arguments]
  | .param _ => [.kind .arg]
  | .imported _ => [.kind .importName]
  | .item _ => [.kind .withItem]
  | .handler _ => [.kind .exceptHandler]

/-! ### Parts are smaller -/

theorem sizeOf_lt_of_mem_toList {α : Type} [SizeOf α] {a : α} {o : Option α}
    (h : a ∈ o.toList) : sizeOf a < sizeOf o := by
  cases o <;> simp_all

theorem sizeOf_lt_of_mem_exprs {e : Expr} {entries : List DictEntry}
    (h : e ∈ entries.flatMap (·.exprs)) : sizeOf e < sizeOf entries := by
  obtain ⟨entry, member, inside⟩ := List.mem_flatMap.1 h
  have outer := List.sizeOf_lt_of_mem member
  cases entry with
  | pair key value =>
    simp only [DictEntry.pair.sizeOf_spec] at outer
    simp only [DictEntry.exprs, List.mem_cons, List.not_mem_nil, or_false] at inside
    rcases inside with rfl | rfl <;> omega
  | unpack mapping =>
    simp only [DictEntry.unpack.sizeOf_spec] at outer
    rw [List.mem_singleton.1 inside]
    omega

theorem Comparison.sizeOf_operand_lt (c : Comparison) : sizeOf c.operand < sizeOf c := by
  cases c
  simp only [operand, mk.sizeOf_spec]
  omega

theorem Node.sizeOf_part_lt {n q : Node} (h : q ∈ n.parts) : sizeOf q < sizeOf n := by
  cases n with
  | expr e =>
    cases e <;>
      grind [Node.parts, Expr.parts, → List.sizeOf_lt_of_mem, → sizeOf_lt_of_mem_toList,
        → sizeOf_lt_of_mem_exprs, Comparison.sizeOf_operand_lt]
  | stmt s =>
    cases s <;>
      grind [Node.parts, Stmt.parts, → List.sizeOf_lt_of_mem, → sizeOf_lt_of_mem_toList]
  | keyword k => cases k; grind [Node.parts]
  | comprehension g => cases g; grind [Node.parts, → List.sizeOf_lt_of_mem]
  | parameters ps =>
    cases ps
    grind [Node.parts, → List.sizeOf_lt_of_mem, → sizeOf_lt_of_mem_toList]
  | param p => cases p; grind [Node.parts, → sizeOf_lt_of_mem_toList]
  | imported a => simp [Node.parts] at h
  | item i => cases i; grind [Node.parts, → sizeOf_lt_of_mem_toList]
  | handler clause =>
    cases clause
    grind [Node.parts, → List.sizeOf_lt_of_mem, → sizeOf_lt_of_mem_toList]

/-- What passes from the parts of a node to the node holds of all nodes. -/
theorem Node.induction {P : Node → Prop} (step : ∀ n, (∀ q ∈ n.parts, P q) → P n) (n : Node) :
    P n := by
  induction h : sizeOf n using Nat.strongRecOn generalizing n with
  | ind size ih =>
    apply step
    intro q direct
    exact ih _ (h ▸ Node.sizeOf_part_lt direct) q rfl

/-! ### Occurrence -/

/-- A node lies within another one if it can be reached from there by going to parts. -/
inductive Within : Node → Node → Prop where
  | self (n : Node) : Within n n
  | part {n q p : Node} (direct : q ∈ n.parts) (below : Within q p) : Within n p

theorem within_iff {n p : Node} : Within n p ↔ p = n ∨ ∃ q ∈ n.parts, Within q p := by
  constructor
  · intro h
    cases h with
    | self => exact .inl rfl
    | part direct below => exact .inr ⟨_, direct, below⟩
  · rintro (rfl | ⟨q, direct, below⟩)
    · exact .self p
    · exact .part direct below

/-- What occurs anywhere in a script; the script itself is of the kind `module`. -/
def Module.Shows (m : Module) (f : Finding) : Prop :=
  f = .kind .module ∨ ∃ s ∈ m.body, ∃ n, Within (.stmt s) n ∧ f ∈ n.own

/-!
The walk over a tree finds what occurs in it, no more and no less. `mem_findings` compares one
node with its parts, form by form: a part that the walk forgot would show there. From it
`mem_findings_iff_within` follows for whole trees by induction on their size.
-/

def Event.finding : Event → Finding
  | .kind found _ => .kind found
  | .call callee _ => .call (callableName callee)

namespace Trace

/-- What is found along a trace. -/
def findings (t : Trace) : List Finding :=
  t.toList.map Event.finding

@[simp] theorem findings_nothing : nothing.findings = [] := rfl

@[simp] theorem findings_kind (k : NodeKind) (span : Span) :
    (kind k span).findings = [.kind k] := rfl

@[simp] theorem findings_call (callee : Expr) (span : Span) :
    (call callee span).findings = [.call (callableName callee)] := rfl

@[simp] theorem findings_append (a b : Trace) :
    (a ++ b).findings = a.findings ++ b.findings := by
  simp only [findings, toList_append, List.map_append]

end Trace

/-! ### Lists of parts -/

variable {f : Finding}

@[simp] theorem mem_eventsAll (items : List Expr) :
    f ∈ (eventsAll items).findings ↔ ∃ e ∈ items, f ∈ e.events.findings := by
  induction items with
  | nil => simp [eventsAll]
  | cons e rest ih => simp [eventsAll, ih]

@[simp] theorem mem_eventsOpt (item : Option Expr) :
    f ∈ (eventsOpt item).findings ↔ ∃ e ∈ item.toList, f ∈ e.events.findings := by
  cases item <;> simp [eventsOpt]

/-- Keys and values are walked apart, but together they are what the entries hold. -/
theorem mem_entryEvents (entries : List DictEntry) :
    f ∈ (keyEvents entries).findings ∨ f ∈ (valueEvents entries).findings ↔
      ∃ e ∈ entries.flatMap (·.exprs), f ∈ e.events.findings := by
  induction entries with
  | nil => simp [keyEvents, valueEvents]
  | cons entry rest ih =>
    cases entry with
    | pair key value =>
      have split : (.pair key value :: rest : List DictEntry).flatMap (·.exprs) =
          key :: value :: rest.flatMap (·.exprs) := rfl
      simp only [split, keyEvents, valueEvents, Trace.findings_append, List.mem_append,
        List.mem_cons, or_and_right, exists_or, exists_eq_left, ← ih]
      tauto
    | unpack mapping =>
      have split : (.unpack mapping :: rest : List DictEntry).flatMap (·.exprs) =
          mapping :: rest.flatMap (·.exprs) := rfl
      simp only [split, keyEvents, valueEvents, Trace.findings_append, List.mem_append,
        List.mem_cons, or_and_right, exists_or, exists_eq_left, ← ih]
      tauto

@[simp] theorem mem_comparisonEvents (rest : List Comparison) :
    f ∈ (comparisonEvents rest).findings ↔
      ∃ e ∈ rest.map (·.operand), f ∈ e.events.findings := by
  induction rest with
  | nil => simp [comparisonEvents]
  | cons step rest ih =>
    cases step
    simp [comparisonEvents, ih, Comparison.operand]

/-! ### A node and its parts -/

/-- The walk over a node. Where parameters stand does not matter for what is found in them. -/
def Node.events : Node → Trace
  | .stmt s => s.events
  | .expr e => e.events
  | .keyword k => keywordEvents [k]
  | .comprehension g => generatorEvents [g]
  | .parameters ps => ps.events .nowhere
  | .param p => p.events
  | .imported a => aliasEvents [a]
  | .item i => itemEvents [i]
  | .handler h => handlerEvents [h]

@[simp] theorem Node.events_stmt (s : Stmt) : (Node.stmt s).events = s.events := rfl

@[simp] theorem Node.events_expr (e : Expr) : (Node.expr e).events = e.events := rfl

@[simp] theorem mem_keywordEvents (keywords : List KeywordArg) :
    f ∈ (keywordEvents keywords).findings ↔
      ∃ k ∈ keywords, f ∈ (Node.keyword k).events.findings := by
  induction keywords with
  | nil => simp [keywordEvents]
  | cons k rest ih =>
    cases k
    simp [keywordEvents, Node.events, ih, or_assoc]

@[simp] theorem mem_generatorEvents (generators : List Comprehension) :
    f ∈ (generatorEvents generators).findings ↔
      ∃ g ∈ generators, f ∈ (Node.comprehension g).events.findings := by
  induction generators with
  | nil => simp [generatorEvents]
  | cons g rest ih =>
    cases g
    simp [generatorEvents, Node.events, ih, or_assoc]

@[simp] theorem mem_paramEvents (params : List Param) :
    f ∈ (paramEvents params).findings ↔
      ∃ p ∈ params, f ∈ (Node.param p).events.findings := by
  induction params with
  | nil => simp [paramEvents]
  | cons p rest ih => simp [paramEvents, Node.events, ih]

@[simp] theorem mem_paramEventsOpt (param : Option Param) :
    f ∈ (paramEventsOpt param).findings ↔
      ∃ p ∈ param.toList, f ∈ (Node.param p).events.findings := by
  cases param <;> simp [paramEventsOpt, Node.events]

@[simp] theorem findings_parameters (span : Span) (ps : Parameters) :
    (ps.events span).findings = (Node.parameters ps).events.findings := by
  cases ps
  simp [Parameters.events, Node.events]

@[simp] theorem mem_aliasEvents (names : List Alias) :
    f ∈ (aliasEvents names).findings ↔
      ∃ a ∈ names, f ∈ (Node.imported a).events.findings := by
  induction names with
  | nil => simp [aliasEvents]
  | cons a rest ih => simp [aliasEvents, Node.events, ih]

@[simp] theorem mem_itemEvents (items : List WithItem) :
    f ∈ (itemEvents items).findings ↔
      ∃ i ∈ items, f ∈ (Node.item i).events.findings := by
  induction items with
  | nil => simp [itemEvents]
  | cons i rest ih =>
    simp [itemEvents, Node.events, ih, or_assoc]

@[simp] theorem mem_bodyEvents (body : List Stmt) :
    f ∈ (bodyEvents body).findings ↔ ∃ s ∈ body, f ∈ s.events.findings := by
  induction body with
  | nil => simp [bodyEvents]
  | cons s rest ih => simp [bodyEvents, ih]

@[simp] theorem mem_handlerEvents (handlers : List ExceptHandler) :
    f ∈ (handlerEvents handlers).findings ↔
      ∃ h ∈ handlers, f ∈ (Node.handler h).events.findings := by
  induction handlers with
  | nil => simp [handlerEvents]
  | cons h rest ih =>
    cases h
    simp [handlerEvents, Node.events, ih, or_assoc]

/-- A statement shows what it is and what its parts show, in whatever order it is walked. -/
theorem Stmt.mem_findings (s : Stmt) :
    f ∈ s.events.findings ↔
      f ∈ (Node.stmt s).own ∨ ∃ q ∈ s.parts, f ∈ q.events.findings := by
  cases s <;>
    simp [Stmt.events, Stmt.parts, Stmt.kind, Node.own, or_and_right, exists_or, or_comm,
      or_left_comm]

/-- So does an expression. The use of a value is met after the parts, and the keys of a
dictionary are met before its values. -/
theorem Expr.mem_findings (e : Expr) :
    f ∈ e.events.findings ↔
      f ∈ (Node.expr e).own ∨ ∃ q ∈ e.parts, f ∈ q.events.findings := by
  cases e with
  | dict entries span =>
    have held : (∃ q ∈ (Expr.dict entries span).parts, f ∈ q.events.findings) ↔
        ∃ e ∈ entries.flatMap (·.exprs), f ∈ e.events.findings := by
      simp [Expr.parts]
    rw [held, ← mem_entryEvents]
    simp [Expr.events, Expr.kind, Expr.marks, Node.own]
  | _ =>
    simp [Expr.events, Expr.parts, Expr.kind, Expr.marks, Node.own, or_and_right, exists_or,
      or_assoc, or_comm, or_left_comm]

/-- The walk over a node finds what the node shows itself and what the walks over its parts
find. -/
theorem Node.mem_findings (n : Node) :
    f ∈ n.events.findings ↔ f ∈ n.own ∨ ∃ q ∈ n.parts, f ∈ q.events.findings := by
  cases n with
  | stmt s => exact s.mem_findings
  | expr e => exact e.mem_findings
  | keyword k =>
    cases k
    rw [Node.events]
    simp [Node.parts, Node.own, keywordEvents]
  | comprehension g =>
    cases g
    rw [Node.events]
    simp [Node.parts, Node.own, generatorEvents]
  | parameters ps =>
    cases ps
    rw [Node.events]
    simp [Node.parts, Node.own, Parameters.events, or_and_right, exists_or]
  | param p =>
    cases p
    rw [Node.events]
    simp [Node.parts, Node.own, Param.events, or_and_right, exists_or]
  | imported a =>
    rw [Node.events]
    simp [Node.parts, Node.own, aliasEvents]
  | item i =>
    rw [Node.events]
    simp [Node.parts, Node.own, itemEvents]
  | handler h =>
    cases h
    rw [Node.events]
    simp [Node.parts, Node.own, handlerEvents, or_and_right, exists_or]

/-- Nothing in a tree is passed over, and nothing is found that is not there. -/
theorem mem_findings_iff_within (n : Node) :
    f ∈ n.events.findings ↔ ∃ p, Within n p ∧ f ∈ p.own := by
  induction n using Node.induction with
  | step n ih =>
    rw [n.mem_findings]
    constructor
    · rintro (own | ⟨q, direct, found⟩)
      · exact ⟨n, .self n, own⟩
      · obtain ⟨p, below, shown⟩ := (ih q direct).1 found
        exact ⟨p, .part direct below, shown⟩
    · rintro ⟨p, within, shown⟩
      rcases within_iff.1 within with rfl | ⟨q, direct, below⟩
      · exact .inl shown
      · exact .inr ⟨q, direct, (ih q direct).2 ⟨p, below, shown⟩⟩

theorem Module.mem_events_iff_shows (m : Module) :
    f ∈ m.events.map Event.finding ↔ m.Shows f := by
  have whole : m.events.map Event.finding = .kind .module :: (bodyEvents m.body).findings := rfl
  rw [whole, List.mem_cons, mem_bodyEvents]
  refine or_congr_right (exists_congr fun s => and_congr_right fun _ => ?_)
  exact mem_findings_iff_within (.stmt s)

end ScoreScript.Script
