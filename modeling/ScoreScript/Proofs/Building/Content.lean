import ScoreScript.Proofs.Building.Call
import ScoreScript.Proofs.Building.Order
import ScoreScript.Proofs.Markup.RoundTrip

/-!
What a document holds apart from how far it has been validated. Checks change only that, so an
element that is put together in order holds what it was given, its children as they came.
-/

namespace ScoreScript

namespace Element

mutual

/-- The element as if nothing in it had been validated. -/
def unmarked : Element → Element
  | ⟨tag, attributes, children, text, _, _⟩ =>
    { tag, attributes, children := unmarkedAll children, text }

def unmarkedAll : List Element → List Element
  | [] => []
  | e :: rest => e.unmarked :: unmarkedAll rest

end

theorem unmarkedAll_eq_map (children : List Element) :
    unmarkedAll children = children.map unmarked := by
  induction children with
  | nil => rfl
  | cons e rest ih => rw [unmarkedAll, ih, List.map_cons]

theorem unmarked_eq (e : Element) :
    e.unmarked = { tag := e.tag, attributes := e.attributes,
                   children := e.children.map unmarked, text := e.text } := by
  cases e
  rw [unmarked, unmarkedAll_eq_map]

theorem unmarked_eq_iff {a b : Element} :
    a.unmarked = b.unmarked ↔ a.tag = b.tag ∧ a.attributes = b.attributes ∧
      a.children.map unmarked = b.children.map unmarked ∧ a.text = b.text := by
  rw [unmarked_eq, unmarked_eq, Element.mk.injEq]
  simp only [and_true]

theorem map_tag_of_unmarked {as bs : List Element} (h : as.map unmarked = bs.map unmarked) :
    as.map (·.tag) = bs.map (·.tag) := by
  have tags (cs : List Element) : (cs.map unmarked).map (·.tag) = cs.map (·.tag) := by
    rw [List.map_map]
    exact List.map_congr_left fun c _ => by rw [Function.comp_apply, unmarked_eq]
  rw [← tags as, h, tags]

theorem sameAll_of_unmarked {as bs : List Element} (h : as.map unmarked = bs.map unmarked)
    (each : ∀ b ∈ bs, ∀ a : Element, a.unmarked = b.unmarked → a.same b = true) :
    sameAll as bs = true := by
  induction as generalizing bs with
  | nil =>
    obtain rfl := List.map_eq_nil_iff.1 h.symm
    rfl
  | cons a as ih =>
    cases bs with
    | nil => cases h
    | cons b bs =>
      obtain ⟨here, later⟩ := List.cons.inj h
      obtain ⟨first, rest⟩ := List.forall_mem_cons.1 each
      rw [sameAll, first a here, ih later rest]
      rfl

/-- Elements that hold the same are the same. -/
theorem same_of_unmarked_eq {b : Element}
    (distinct : b.Everywhere fun e => (e.attributes.map (·.1)).Nodup) :
    ∀ a : Element, a.unmarked = b.unmarked → a.same b = true := by
  induction b using Element.induction with
  | step b ih =>
    intro a h
    obtain ⟨tag, attributes, children, text⟩ := unmarked_eq_iff.1 h
    obtain ⟨here, inside⟩ := everywhere_iff.1 distinct
    have below := sameAll_of_unmarked children fun c member => ih c member (inside c member)
    cases a
    rw [same, below]
    simp only at tag attributes text
    rw [tag, attributes, text, sameAttributes_self here]
    simp

/-- An element that keeps its texts is read back as it is. -/
theorem reread_eq_unmarked {e : Element} (keeps : e.Everywhere KeepsText) :
    ∀ depth, e.reread depth = e.unmarked := by
  induction e using Element.induction with
  | step e ih =>
    intro depth
    obtain ⟨here, inside⟩ := everywhere_iff.1 keeps
    obtain ⟨tag, attributes, children, text, checked, settled⟩ := e
    rw [reread, unmarked, rereadAll_eq_map, unmarkedAll_eq_map, foundText_iff.2 here,
      List.map_congr_left fun c member => ih c member (inside c member) (depth + 1)]

end Element

/-! ### Checks -/

namespace Schema

theorem map_unmarked_inspectAll {s : Schema} {mode : Mode} {children : List Element}
    (each : ∀ c ∈ children, ∀ path, (s.inspect mode path c).1.unmarked = c.unmarked) :
    ∀ path index, (s.inspectAll mode path index children).1.map Element.unmarked =
      children.map Element.unmarked := by
  induction children with
  | nil =>
    intro path index
    rfl
  | cons c rest ih =>
    intro path index
    obtain ⟨here, later⟩ := List.forall_mem_cons.1 each
    rw [inspectAll, List.map_cons, List.map_cons, here, ih later]

theorem unmarked_inspect (s : Schema) (mode : Mode) (e : Element) :
    ∀ path, (s.inspect mode path e).1.unmarked = e.unmarked := by
  induction e using Element.induction with
  | step e ih =>
    intro path
    cases settled : e.settled with
    | true => rw [inspect_of_settled s mode path settled]
    | false =>
      rw [inspect_of_open s mode path settled]
      exact Element.unmarked_eq_iff.2 ⟨rfl, rfl, map_unmarked_inspectAll ih path 0, rfl⟩

end Schema

theorem unmarked_checkElement (mode : Mode) (span : Span) (reported : List String) (e : Element)
    (log : Log) : (checkElement mode span reported e log).1.1.unmarked = e.unmarked := by
  unfold checkElement
  simp only
  split
  · rfl
  · exact Schema.unmarked_inspect _ mode e e.tag

namespace Draft

theorem check_keeps (mode : Mode) (span : Span) (d : Draft) (log : Log) :
    (d.check mode span log).1.type = d.type ∧
      (d.check mode span log).1.element.unmarked = d.element.unmarked :=
  ⟨rfl, unmarked_checkElement mode span d.reported d.element log⟩

/-- A child with this tag can come last. -/
def Fits (tag : String) (d : Draft) : Prop :=
  (d.element.children.map (·.tag) ++ [tag]).Pairwise fun a b =>
    Element.rank d.type.order a ≤ Element.rank d.type.order b

theorem attach_keeps {child : Element} {d : Draft} (fits : d.Fits child.tag) (span : Span)
    (log : Log) :
    (d.attach span child log).1.type = d.type ∧
      (d.attach span child log).1.element.unmarked = (d.element.addChild child).unmarked := by
  have inPlace : (d.element.addChild child).sortChildren d.type.order =
      d.element.addChild child := by
    refine if_pos ((Element.inOrder_iff_pairwise _ _).2 ?_)
    rw [Fits, ← List.map_singleton (f := Element.tag), ← List.map_append,
      List.pairwise_map] at fits
    exact fits
  unfold attach
  rw [inPlace]
  exact check_keeps .tolerant span { d with element := d.element.addChild child } log

end Draft

namespace Assembly

/-- A child with this tag can come last in the innermost open element. -/
def Fits (tag : String) (a : Assembly) : Prop :=
  ∀ top ∈ a.frames.head?, top.draft.Fits tag

/-- The element was added to the innermost open one, or was made the root. All else is
validation. -/
def Gains (e : Element) (a a' : Assembly) : Prop :=
  match a.frames with
  | [] => a'.frames = [] ∧ ∃ root, a'.root = some root ∧ root.unmarked = e.unmarked
  | top :: below => ∃ draft, a'.frames = { top with draft } :: below ∧
      draft.type = top.draft.type ∧
      draft.element.unmarked = (top.draft.element.addChild e).unmarked

theorem attach_gains {a : Assembly} {e : Element} (fits : a.Fits e.tag) (span : Span) :
    Gains e a (attach span e a).2 := by
  unfold Gains
  cases frames : a.frames with
  | nil =>
    rw [attach_nil frames]
    exact ⟨frames, e, rfl, rfl⟩
  | cons top below =>
    rw [attach_frame frames]
    obtain ⟨type, content⟩ := Draft.attach_keeps (fits top (by rw [frames]; rfl)) span a.log
    exact ⟨_, rfl, type, content⟩

/-- It does not matter how far the element was validated. -/
theorem Gains.congr {e e' : Element} {a a' : Assembly} (same : e.unmarked = e'.unmarked)
    (gains : Gains e a a') : Gains e' a a' := by
  unfold Gains at *
  split at gains
  · rwa [same] at gains
  · obtain ⟨draft, frames, type, content⟩ := gains
    refine ⟨draft, frames, type, content.trans (Element.unmarked_eq_iff.2 ⟨rfl, rfl, ?_, rfl⟩)⟩
    rw [Element.addChild, Element.addChild, List.map_append, List.map_append]
    simp [same]

/-- Closing an element adds it to the one around it. -/
theorem close_gains {kit : Kit} (lenient : kit.strict = false) {a : Assembly} {top : Frame}
    {below : List Frame} (frames : a.frames = top :: below)
    (fits : Fits top.draft.element.tag { a with frames := below }) :
    ∃ a', (close kit ⟨top.scope, top.id⟩).run a = (.ok (), a') ∧
      Gains top.draft.element { a with frames := below } a' := by
  obtain ⟨-, content⟩ := top.draft.check_keeps .strict top.span a.log
  refine ⟨a.closed top below, close_top_lenient lenient frames rfl, ?_⟩
  have tag := (Element.unmarked_eq_iff.1 content).1
  rw [← tag] at fits
  let checked := top.draft.check .strict top.span a.log
  exact (attach_gains (a := { a with frames := below, log := checked.2 }) fits top.span).congr
    content

theorem unmarked_settleRoot (root : Element) (log : Log) :
    (settleRoot root log).1.unmarked = root.unmarked := by
  unfold settleRoot
  split
  · rfl
  · exact unmarked_checkElement .strict .nowhere [] root log

/-- The document that is finished holds what the root holds. -/
theorem finish_unmarked {kit : Kit} (lenient : kit.strict = false) {a : Assembly} {root : Element}
    (frames : a.frames = []) (made : a.root = some root) :
    ∃ document found a', (finish kit).run a = (.ok (document, found), a') ∧
      document.root.unmarked = root.unmarked := by
  rw [finish_root frames made, escalate, lenient]
  exact ⟨_, _, _, rfl, unmarked_settleRoot root a.log⟩

/-- A document that is finished is made of the root, however validation went. -/
theorem root_of_finish {kit : Kit} {a a' : Assembly} {d : Document} {found : List Diagnostic}
    (finished : (finish kit).run a = (.ok (d, found), a')) :
    ∃ root, a.root = some root ∧ d.root.unmarked = root.unmarked := by
  cases frames : a.frames with
  | cons top below =>
    rw [finish_unclosed kit frames] at finished
    cases finished
  | nil =>
    cases made : a.root with
    | none =>
      rw [finish_rootless kit frames made] at finished
      cases finished
    | some root =>
      rw [finish_root frames made] at finished
      cases passed : escalate kit (settleRoot root a.log).1.tag (settleRoot root a.log).2 with
      | error e =>
        rw [passed] at finished
        cases finished
      | ok _ =>
        rw [passed] at finished
        cases finished
        exact ⟨root, rfl, unmarked_settleRoot root a.log⟩

end Assembly

end ScoreScript
