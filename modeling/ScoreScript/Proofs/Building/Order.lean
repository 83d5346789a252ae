import Mathlib.Data.List.Nodup
import ScoreScript.Proofs.Building.Spot

/-!
Where a new child goes. Children that are in order stay as they are when one is added: it goes
after those that may stand before it and before all others.
-/

namespace ScoreScript

section Insertion

variable {α : Type} {le : α → α → Bool}

/-- A stable sort puts a last element among others that are in order. -/
theorem mergeSort_append_singleton (trans : ∀ a b c, le a b → le b c → le a c)
    (total : ∀ a b, le a b || le b a) (x : α) {xs : List α} (sorted : xs.Pairwise (le · ·)) :
    ∃ before after, xs = before ++ after ∧ (xs ++ [x]).mergeSort le = before ++ x :: after ∧
      (∀ y ∈ before, le y x = true) ∧ ∀ y ∈ after, le y x = false := by
  induction xs with
  | nil => exact ⟨[], [], rfl, by simp, by simp, by simp⟩
  | cons a xs ih =>
    obtain ⟨least, sorted⟩ := List.pairwise_cons.1 sorted
    obtain ⟨before, after, rfl, merged, lower, upper⟩ := ih sorted
    obtain ⟨front, back, placed, rest, above⟩ :=
      List.mergeSort_cons trans total a ((before ++ after) ++ [x])
    rw [merged] at rest
    by_cases first : le a x = true
    · -- nothing comes before `a`
      have none : front = [] := by
        cases front with
        | nil => rfl
        | cons b front =>
          have member : b ∈ before ++ x :: after := by
            rw [rest]
            exact List.mem_cons_self
          have notBelow := above b List.mem_cons_self
          have below : le a b = true := by
            rcases List.mem_append.1 member with inside | inside
            · exact least b (List.mem_append_left _ inside)
            · rcases List.mem_cons.1 inside with rfl | inside
              · exact first
              · exact least b (List.mem_append_right _ inside)
          rw [below] at notBelow
          cases notBelow
      subst none
      refine ⟨a :: before, after, rfl, ?_, ?_, upper⟩
      · rw [List.cons_append, List.cons_append, placed, List.nil_append, ← rest.trans
          (List.nil_append back)]
      · exact List.forall_mem_cons.2 ⟨first, lower⟩
    · -- only `x` comes before `a`
      have no : before = [] := by
        cases before with
        | nil => rfl
        | cons b before =>
          exact absurd (trans a b x (least b (by simp)) (lower b List.mem_cons_self)) first
      subst no
      have inOrder := List.pairwise_mergeSort trans total (a :: (([] ++ after) ++ [x]))
      rw [placed] at inOrder
      cases front with
      | nil =>
        rw [List.nil_append, List.nil_append] at rest
        rw [← rest] at inOrder
        exact absurd ((List.pairwise_cons.1 inOrder).1 x List.mem_cons_self) first
      | cons f front =>
        rw [List.nil_append, List.cons_append, List.cons.injEq] at rest
        obtain ⟨rfl, rfl⟩ := rest
        have none : front = [] := by
          cases front with
          | nil => rfl
          | cons b front =>
            have notBelow := above b (by simp)
            rw [least b (by simp)] at notBelow
            cases notBelow
        subst none
        refine ⟨[], a :: back, rfl, placed, by simp, ?_⟩
        refine List.forall_mem_cons.2 ⟨by simpa using first, upper⟩

end Insertion

theorem Element.inOrder_iff_pairwise (order : List String) (children : List Element) :
    inOrder order children = true ↔
      children.Pairwise fun a b => rank order a.tag ≤ rank order b.tag := by
  induction children with
  | nil => exact ⟨fun _ => .nil, fun _ => rfl⟩
  | cons a rest ih =>
    cases rest with
    | nil => exact ⟨fun _ => List.pairwise_singleton _ _, fun _ => rfl⟩
    | cons b rest =>
      rw [inOrder, Bool.and_eq_true, decide_eq_true_eq, ih, List.pairwise_cons (a := a)]
      refine and_congr_left fun later => ⟨fun first => ?_, fun first => first b List.mem_cons_self⟩
      refine List.forall_mem_cons.2 ⟨first, fun c member => ?_⟩
      exact Nat.le_trans first ((List.pairwise_cons.1 later).1 c member)

/-! ### Stable sorts -/

/-- The same members in the order of their ranks, those of equal rank as they were. -/
structure StableSort {α : Type} (rank : α → Nat) (before after : List α) : Prop where
  perm : after.Perm before
  ordered : after.Pairwise fun a b => rank a ≤ rank b
  stable : ∀ r, after.filter (rank · = r) = before.filter (rank · = r)

namespace StableSort

variable {α β : Type} {rank : α → Nat}

theorem refl {members : List α} (ordered : members.Pairwise fun a b => rank a ≤ rank b) :
    StableSort rank members members :=
  ⟨.refl members, ordered, fun _ => rfl⟩

/-- A merge sort keeps what is in order already, so also the members of one rank. -/
theorem mergeSort (members : List α) :
    StableSort rank members (members.mergeSort fun a b => rank a ≤ rank b) := by
  have trans : ∀ a b c, decide (rank a ≤ rank b) → decide (rank b ≤ rank c) →
      decide (rank a ≤ rank c) := by
    intro a b c first second
    exact decide_eq_true (Nat.le_trans (of_decide_eq_true first) (of_decide_eq_true second))
  have total : ∀ a b, decide (rank a ≤ rank b) || decide (rank b ≤ rank a) := by
    intro a b
    rcases Nat.le_total (rank a) (rank b) with below | above
    · rw [decide_eq_true below, Bool.true_or]
    · rw [decide_eq_true above, Bool.or_true]
  have perm := List.mergeSort_perm members fun a b => decide (rank a ≤ rank b)
  refine ⟨perm, (List.pairwise_mergeSort trans total members).imp of_decide_eq_true, fun r => ?_⟩
  have alike : (members.filter (rank · = r)).Pairwise fun a b => decide (rank a ≤ rank b) := by
    refine List.pairwise_of_forall_mem_list fun a first b second => decide_eq_true ?_
    have left := of_decide_eq_true (List.mem_filter.1 first).2
    have right := of_decide_eq_true (List.mem_filter.1 second).2
    exact Nat.le_of_eq (left.trans right.symm)
  have inside := (List.sublist_mergeSort trans total alike List.filter_sublist).filter (rank · = r)
  rw [List.filter_filter] at inside
  simp only [Bool.and_self] at inside
  exact (inside.eq_of_length (perm.filter _).length_eq.symm).symm

theorem map {rank' : β → Nat} {f : α → β} (ranks : ∀ a, rank' (f a) = rank a)
    {before after : List α} (sorted : StableSort rank before after) :
    StableSort rank' (before.map f) (after.map f) := by
  refine ⟨sorted.perm.map f, List.pairwise_map.2 ?_, fun r => ?_⟩
  · simpa only [ranks] using sorted.ordered
  · have same : (fun b => decide (rank' b = r)) ∘ f = fun a => decide (rank a = r) :=
      funext fun a => by rw [Function.comp_apply, ranks]
    rw [List.filter_map, List.filter_map, same, sorted.stable]

/-- What comes behind can be sorted in later. -/
theorem append {before after more all : List α} (first : StableSort rank before after)
    (then' : StableSort rank (after ++ more) all) : StableSort rank (before ++ more) all where
  perm := then'.perm.trans (first.perm.append_right more)
  ordered := then'.ordered
  stable r := by rw [then'.stable, List.filter_append, first.stable, ← List.filter_append]

/-- What members of each rank there are, and how they follow each other, leaves one way to put
all of them in order. -/
theorem eq_of_ordered {xs ys : List α} (ordered : xs.Pairwise fun a b => rank a ≤ rank b)
    (ordered' : ys.Pairwise fun a b => rank a ≤ rank b)
    (same : ∀ r, xs.filter (rank · = r) = ys.filter (rank · = r)) : xs = ys := by
  have member (z : α) (zs : List α) : z ∈ zs ↔ z ∈ zs.filter (rank · = rank z) := by
    rw [List.mem_filter, decide_eq_true_eq, and_iff_left rfl]
  induction xs generalizing ys with
  | nil =>
    refine (List.eq_nil_iff_forall_not_mem.2 fun z inside => ?_).symm
    rw [member, ← same] at inside
    cases inside
  | cons x xs ih =>
    have inBoth (z : α) : z ∈ x :: xs ↔ z ∈ ys := by rw [member, same, ← member]
    cases ys with
    | nil => exact absurd ((inBoth x).1 List.mem_cons_self) List.not_mem_nil
    | cons y ys =>
      obtain ⟨least, later⟩ := List.pairwise_cons.1 ordered
      obtain ⟨least', later'⟩ := List.pairwise_cons.1 ordered'
      -- Each of the first two is in the other list, so neither rank is below the other.
      have level : rank x = rank y := by
        apply Nat.le_antisymm
        · rcases List.mem_cons.1 ((inBoth y).2 List.mem_cons_self) with rfl | inside
          · exact Nat.le_refl _
          · exact least y inside
        · rcases List.mem_cons.1 ((inBoth x).1 List.mem_cons_self) with rfl | inside
          · exact Nat.le_refl _
          · exact least' x inside
      have first := same (rank x)
      rw [List.filter_cons_of_pos (by simp), List.filter_cons_of_pos (by simp [level])] at first
      obtain ⟨rfl, -⟩ := List.cons.inj first
      have rest (r : Nat) : xs.filter (rank · = r) = ys.filter (rank · = r) := by
        have here := same r
        rw [List.filter_cons, List.filter_cons] at here
        split at here
        · exact (List.cons.inj here).2
        · exact here
      rw [ih later later' rest]

theorem unique {before after after' : List α} (sorted : StableSort rank before after)
    (sorted' : StableSort rank before after') : after = after' :=
  eq_of_ordered sorted.ordered sorted'.ordered fun r =>
    (sorted.stable r).trans (sorted'.stable r).symm

end StableSort

namespace Element

/-- Putting children in order is a stable sort, also where it need not do anything. -/
theorem stableSort_sortChildren (order : List String) (e : Element) :
    StableSort (fun c => rank order c.tag) e.children (e.sortChildren order).children := by
  unfold sortChildren
  split
  · rename_i sorted
    exact .refl ((inOrder_iff_pairwise order e.children).1 sorted)
  · exact .mergeSort e.children

/-- It changes nothing else. -/
theorem sortChildren_keeps (order : List String) (e : Element) :
    (e.sortChildren order).tag = e.tag ∧ (e.sortChildren order).attributes = e.attributes ∧
      (e.sortChildren order).text = e.text := by
  unfold sortChildren
  split <;> exact ⟨rfl, rfl, rfl⟩

theorem sortChildren_sortChildren (order : List String) (e : Element) :
    (e.sortChildren order).sortChildren order = e.sortChildren order :=
  if_pos ((inOrder_iff_pairwise order _).2 (e.stableSort_sortChildren order).ordered)

/-- A tag that is listed has the place where it is listed first. -/
theorem rank_of_listed {before : List String} {tag : String} (new : tag ∉ before)
    (after : List String) : rank (before ++ tag :: after) tag = before.length := by
  rw [rank, List.idxOf_append_of_notMem new, List.idxOf_cons_self, Nat.add_zero]

/-- A tag that is not listed comes after all that are. -/
theorem rank_of_unlisted {order : List String} {tag : String} (unlisted : tag ∉ order) :
    rank order tag = order.length ∧ ∀ listed ∈ order, rank order listed < rank order tag := by
  have last : rank order tag = order.length := List.idxOf_eq_length unlisted
  refine ⟨last, fun listed member => ?_⟩
  rw [last]
  exact List.idxOf_lt_length_of_mem member

/-- Children put in order once. -/
def sorted (order : List String) (children : List Element) : List Element :=
  children.mergeSort fun a b => rank order a.tag ≤ rank order b.tag

@[simp] theorem sorted_nil (order : List String) : sorted order [] = [] :=
  List.mergeSort_nil

theorem stableSort_sorted (order : List String) (children : List Element) :
    StableSort (fun c => rank order c.tag) children (sorted order children) :=
  .mergeSort children

@[simp] theorem children_sortChildren (order : List String) (e : Element) :
    (e.sortChildren order).children = sorted order e.children :=
  (e.stableSort_sortChildren order).unique (stableSort_sorted order e.children)

/-- To put children in order once more when others have come is to do it once. -/
theorem sorted_append (order : List String) (children more : List Element) :
    sorted order (sorted order children ++ more) = sorted order (children ++ more) :=
  ((stableSort_sorted order children).append (stableSort_sorted order _)).unique
    (stableSort_sorted order _)

theorem map_sorted {f : Element → Element} (tags : ∀ e, (f e).tag = e.tag) (order : List String)
    (children : List Element) :
    (sorted order children).map f = sorted order (children.map f) :=
  ((stableSort_sorted order children).map fun e => by rw [tags]).unique
    (stableSort_sorted order _)

end Element

namespace Piece

/-- The children are in order. -/
def Sorted (order : List String) (p : Piece) : Prop :=
  p.children.Pairwise fun a b => Element.rank order a.tag ≤ Element.rank order b.tag

theorem inOrder_iff_pairwise (order : List String) (children : List Piece) :
    inOrder order children = true ↔
      children.Pairwise fun a b => Element.rank order a.tag ≤ Element.rank order b.tag := by
  rw [inOrder, Element.inOrder_iff_pairwise, List.pairwise_map]
  simp only [element_tag]

/-- Adding a child changes neither number, tag, attributes nor text, and the element counts as
unchecked. -/
theorem adopt_eq (p : Piece) (order : List String) (child : Piece) :
    p.adopt order child =
      { p with children := (p.adopt order child).children, checked := false } := by
  unfold adopt sortChildren
  split <;> rfl

@[simp] theorem adopt_serial (p : Piece) (order : List String) (child : Piece) :
    (p.adopt order child).serial = p.serial := by
  rw [adopt_eq]

@[simp] theorem adopt_tag (p : Piece) (order : List String) (child : Piece) :
    (p.adopt order child).tag = p.tag := by
  rw [adopt_eq]

@[simp] theorem adopt_settled (p : Piece) (order : List String) (child : Piece) :
    (p.adopt order child).settled = p.settled := by
  rw [adopt_eq]

@[simp] theorem adopt_checked (p : Piece) (order : List String) (child : Piece) :
    (p.adopt order child).checked = false := by
  rw [adopt_eq]

/-- A child goes behind those that may stand before it and before all others. -/
theorem children_adopt {p : Piece} {order : List String} (sorted : p.Sorted order)
    (child : Piece) :
    (∃ before after, p.children = before ++ after ∧
      (p.adopt order child).children = before ++ child :: after ∧
      ∀ c ∈ after, c.tag ≠ child.tag) ∧
    (p.adopt order child).Sorted order := by
  unfold adopt sortChildren Sorted
  split
  · rename_i already
    refine ⟨⟨p.children, [], by simp, rfl, by simp⟩, ?_⟩
    exact (inOrder_iff_pairwise order _).1 already
  · have trans (a b c : Piece)
        (ab : decide (Element.rank order a.tag ≤ Element.rank order b.tag) = true)
        (bc : decide (Element.rank order b.tag ≤ Element.rank order c.tag) = true) :
        decide (Element.rank order a.tag ≤ Element.rank order c.tag) = true := by
      rw [decide_eq_true_eq] at *
      exact Nat.le_trans ab bc
    have total (a b : Piece) :
        (decide (Element.rank order a.tag ≤ Element.rank order b.tag) ||
          decide (Element.rank order b.tag ≤ Element.rank order a.tag)) = true := by
      rw [Bool.or_eq_true, decide_eq_true_eq, decide_eq_true_eq]
      exact Nat.le_total _ _
    constructor
    · obtain ⟨before, after, split, placed, -, above⟩ :=
        mergeSort_append_singleton trans total child
          (sorted.imp fun {a b} le => decide_eq_true le)
      refine ⟨before, after, split, placed, fun c member same => ?_⟩
      have after := above c member
      rw [same, decide_eq_false_iff_not] at after
      exact after (Nat.le_refl _)
    · exact (List.pairwise_mergeSort trans total (p.children ++ [child])).imp
        fun {a b} le => of_decide_eq_true le

theorem mem_children_adopt {p : Piece} {order : List String} (sorted : p.Sorted order)
    {child c : Piece} : c ∈ (p.adopt order child).children ↔ c = child ∨ c ∈ p.children := by
  obtain ⟨⟨before, after, split, placed, -⟩, -⟩ := children_adopt sorted child
  rw [split, placed]
  simp only [List.mem_append, List.mem_cons]
  exact or_left_comm

theorem isEmpty_children_adopt {p : Piece} {order : List String} (sorted : p.Sorted order)
    (child : Piece) : (p.adopt order child).children.isEmpty = false := by
  obtain ⟨⟨before, after, -, placed, -⟩, -⟩ := children_adopt sorted child
  rw [placed]
  simp

theorem serials_adopt {p : Piece} {order : List String} (sorted : p.Sorted order)
    (child : Piece) : (p.adopt order child).serials.Perm (p.serials ++ child.serials) := by
  obtain ⟨⟨before, after, split, placed, -⟩, -⟩ := children_adopt sorted child
  rw [serials_eq, serials_eq p, adopt_serial, placed, split, List.cons_append,
    List.flatMap_append, List.flatMap_append, List.flatMap_cons, List.append_assoc]
  exact ((List.perm_append_comm).append_left _).cons _

theorem sorted_examine {p : Piece} {order : List String} (sorted : p.Sorted order) (mode : Mode) :
    (p.examine mode).Sorted order := by
  have byTag (q : Piece) : q.Sorted order ↔ (q.children.map (·.tag)).Pairwise fun a b =>
      Element.rank order a ≤ Element.rank order b := by
    rw [List.pairwise_map]
    rfl
  rw [byTag] at *
  rwa [examine_children_tags]

end Piece

end ScoreScript
