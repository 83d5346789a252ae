import ScoreScript.Proofs.Sandbox.Exactness
import ScoreScript.Proofs.Source.Cursor

/-!
Where the nodes of a tree stand. The span of a node holds the spans of its parts, which follow one
another (`Node.IsLocated`). Nodes that were read but are not part of anything yet form a series
between two offsets; with a span from the first offset to the second they become the parts of a
node.
-/

namespace ScoreScript.Script

/-- The span of a node. Parameters together have none. -/
def Node.span : Node → Span
  | .stmt s => s.span
  | .expr e => e.span
  | .keyword k => k.span
  | .comprehension (.mk _ _ _ span) => span
  | .parameters _ => .nowhere
  | .param (.mk _ _ _ span) => span
  | .imported a => a.span
  | .item i => i.span
  | .handler (.mk _ _ _ span) => span

/-- The forms of syntax that declarative scripts consist of, whatever the use of a name. -/
def Node.isSimple : Node → Bool
  | .stmt (.expr _ _) | .stmt (.pass _) | .stmt (.withStmt _ _ _) => true
  | .expr (.constant _ _) | .expr (.name _ _ _) | .expr (.tuple _ _ _) => true
  | .expr (.unary .minus _ _) | .expr (.call _ _ _ _) => true
  | .keyword _ | .item _ => true
  | _ => false

/-- Everything in the node has such a form. -/
def Node.Simple (n : Node) : Prop :=
  ∀ p, Within n p → p.isSimple = true

variable {text : List UInt8} {n p : Node} {nodes nodes' : List Node} {lo lo' hi hi' : Nat}

theorem Node.simple_iff : n.Simple ↔ n.isSimple = true ∧ ∀ q ∈ n.parts, q.Simple := by
  constructor
  · exact fun all => ⟨all n (.self n), fun q direct p below => all p (.part direct below)⟩
  · rintro ⟨own, parts⟩ p within
    obtain rfl | ⟨q, direct, below⟩ := within_iff.1 within
    · exact own
    · exact parts q direct p below

theorem Node.not_simple (h : n.isSimple = false) : ¬n.Simple :=
  fun all => absurd (all n (.self n)) (ne_true_of_eq_false h)

theorem Node.InFragment.simple (h : n.InFragment) : n.Simple := by
  intro p within
  have inside := h.of_within within
  cases p with
  | stmt s => cases s <;> first | rfl | cases inside
  | expr e =>
    cases e with
    | unary op operand span =>
      obtain ⟨rfl, -⟩ := inside
      rfl
    | _ => first | rfl | cases inside
  | keyword k => rfl
  | item i => rfl
  | _ => cases inside

/-- The node stands somewhere in the text, and its parts stand in it, one after another. -/
structure Node.IsLocated (text : List UInt8) (n : Node) : Prop where
  span : n.span.IsIn text
  inside : ∀ q ∈ n.parts, q.span.Inside n.span
  ordered : n.parts.Pairwise fun p q => p.span.Before q.span

/-- It depends on the span of the node and on those of its parts. -/
theorem Node.IsLocated.congr (h : n.IsLocated text) (span : p.span = n.span)
    (parts : p.parts.map Node.span = n.parts.map Node.span) : p.IsLocated text := by
  have inside : ∀ s ∈ n.parts.map Node.span, s.Inside n.span := List.forall_mem_map.2 h.inside
  have ordered : (n.parts.map Node.span).Pairwise Span.Before := List.pairwise_map.2 h.ordered
  rw [← parts] at inside ordered
  exact ⟨span ▸ h.span, span ▸ List.forall_mem_map.1 inside, List.pairwise_map.1 ordered⟩

/-- So does everything in the node. -/
def Node.Located (text : List UInt8) (n : Node) : Prop :=
  ∀ p, Within n p → p.IsLocated text

theorem Node.located_iff : n.Located text ↔ n.IsLocated text ∧ ∀ q ∈ n.parts, q.Located text := by
  constructor
  · exact fun all => ⟨all n (.self n), fun q direct p below => all p (.part direct below)⟩
  · rintro ⟨own, parts⟩ p within
    obtain rfl | ⟨q, direct, below⟩ := within_iff.1 within
    · exact own
    · exact parts q direct p below

/-- Nodes between two offsets, one after another. -/
structure Series (text : List UInt8) (lo hi : Nat) (nodes : List Node) : Prop where
  located : ∀ n ∈ nodes, n.Located text
  between : ∀ n ∈ nodes, lo ≤ n.span.start.offset ∧ n.span.stop.offset ≤ hi
  ordered : nodes.Pairwise fun p q => p.span.Before q.span

namespace Series

theorem nil : Series text lo hi [] :=
  ⟨List.forall_mem_nil _, List.forall_mem_nil _, List.Pairwise.nil⟩

theorem mono (h : Series text lo hi nodes) (first : lo' ≤ lo) (last : hi ≤ hi') :
    Series text lo' hi' nodes :=
  ⟨h.located, fun n inside => (h.between n inside).imp (Nat.le_trans first) (Nat.le_trans · last),
    h.ordered⟩

theorem append (h : Series text lo hi nodes) (h' : Series text lo' hi' nodes') (first : lo ≤ lo')
    (next : hi ≤ lo') (last : hi ≤ hi') : Series text lo hi' (nodes ++ nodes') := by
  refine ⟨List.forall_mem_append.2 ⟨h.located, h'.located⟩, List.forall_mem_append.2
    ⟨(h.mono (Nat.le_refl _) last).between, (h'.mono first (Nat.le_refl _)).between⟩, ?_⟩
  refine List.pairwise_append.2 ⟨h.ordered, h'.ordered, fun p before q after => ?_⟩
  exact Nat.le_trans (h.between p before).2 (Nat.le_trans next (h'.between q after).1)

/-- A series takes up some of the text, unless it is empty. -/
theorem lt (h : Series text lo hi nodes) (some : nodes ≠ []) : lo < hi := by
  obtain ⟨n, inside⟩ := List.exists_mem_of_ne_nil nodes some
  have own := (h.located n inside n (.self n)).span.nonempty
  obtain ⟨first, last⟩ := h.between n inside
  omega

/-- The parts of a node are a series in its span. -/
theorem node (h : Series text n.span.start.offset n.span.stop.offset n.parts)
    (span : n.span.IsIn text) : Series text n.span.start.offset n.span.stop.offset [n] := by
  have located : n.Located text := Node.located_iff.2 ⟨⟨span, h.between, h.ordered⟩, h.located⟩
  exact ⟨List.forall_mem_singleton.2 located,
    List.forall_mem_singleton.2 ⟨Nat.le_refl _, Nat.le_refl _⟩, List.pairwise_singleton _ _⟩

end Series

end ScoreScript.Script
