import ScoreScript.Proofs.Building.Content

/-!
Checking an element in two phases. What a check of an element under construction reports is the
part of all its violations that earlier checks held back (`inspect_evenly`), and it leaves nothing
of the element changed but how far it has been validated. So a tolerant check and a strict one
after it share the violations out between them. Main statement: `Validator.phases_partition`.
-/

namespace ScoreScript

namespace Element

/-- Every element in it has been checked if `checked` says so, and none is settled. -/
def EvenlyOpen (checked : Bool) (e : Element) : Prop :=
  e.Everywhere fun n => n.checked = checked ∧ n.settled = false

/-- Nothing in it has been validated. -/
abbrev Fresh (e : Element) : Prop :=
  e.EvenlyOpen false

/-- Everything in it has been validated for good. -/
def Settled (e : Element) : Prop :=
  e.Everywhere fun n => n.settled = true

theorem Fresh.unmarked_eq_self {e : Element} (fresh : e.Fresh) : e.unmarked = e := by
  induction e using Element.induction with
  | step e ih =>
    obtain ⟨⟨unchecked, unsettled⟩, inside⟩ := everywhere_iff.1 fresh
    have children : e.children.map unmarked = e.children := by
      conv => rhs; rw [← List.map_id e.children]
      exact List.map_congr_left fun c member => ih c member (inside c member)
    rw [unmarked_eq, children]
    obtain ⟨tag, attributes, children, text, checked, settled⟩ := e
    subst unchecked unsettled
    rfl

end Element

namespace Schema

variable (s : Schema)

/-! ### Violations and marks -/

theorem violations_eq (path : String) (e : Element) :
    s.violations path e =
      (s.ownFaults e).map (⟨·, path⟩) ++ s.childViolations path 0 e.children := by
  cases e
  rw [violations]

/-- What is wrong with children does not depend on how far they have been validated. -/
theorem childViolations_congr {as : List Element}
    (each : ∀ a ∈ as, ∀ path (b : Element), a.unmarked = b.unmarked →
      s.violations path a = s.violations path b) :
    ∀ {bs : List Element}, as.map Element.unmarked = bs.map Element.unmarked →
      ∀ path index, s.childViolations path index as = s.childViolations path index bs := by
  induction as with
  | nil =>
    intro bs same path index
    rw [List.map_eq_nil_iff.1 same.symm]
  | cons a as ih =>
    intro bs same path index
    cases bs with
    | nil => cases same
    | cons b bs =>
      obtain ⟨here, later⟩ := List.cons.inj same
      obtain ⟨first, others⟩ := List.forall_mem_cons.1 each
      have tag : a.tag = b.tag := (Element.unmarked_eq_iff.1 here).1
      have place : childPath path a index = childPath path b index := by
        rw [childPath, childPath, tag]
      rw [childViolations, childViolations, first _ b here, ih others later, place]

theorem violations_congr {a : Element} :
    ∀ path {b : Element}, a.unmarked = b.unmarked → s.violations path a = s.violations path b := by
  induction a using Element.induction with
  | step a ih =>
    intro path b same
    obtain ⟨tag, attributes, children, text⟩ := Element.unmarked_eq_iff.1 same
    rw [violations_eq, violations_eq, s.ownFaults_congr tag attributes text
      (Element.map_tag_of_unmarked children)]
    have below := s.childViolations_congr (fun c member path b => ih c member path) children path 0
    rw [below]

/-! ### One check -/

/-- The violations that a check reports, given whether everything was checked before. -/
def newViolations (mode : Mode) (checked : Bool) (all : List Violation) : List Violation :=
  all.filter fun v => reports mode checked v.fault

variable {s} {mode : Mode} {checked : Bool}

theorem inspectAll_evenly {children : List Element}
    (each : ∀ c ∈ children, ∀ path,
      (s.inspect mode path c).2 = newViolations mode checked (s.violations path c) ∧
      (s.inspect mode path c).1.Everywhere fun n =>
        n.checked = true ∧ n.settled = (mode == .strict)) :
    ∀ path index,
      (s.inspectAll mode path index children).2 =
        newViolations mode checked (s.childViolations path index children) ∧
      ∀ c ∈ (s.inspectAll mode path index children).1,
        c.Everywhere fun n => n.checked = true ∧ n.settled = (mode == .strict) := by
  induction children with
  | nil =>
    intro path index
    exact ⟨rfl, List.forall_mem_nil _⟩
  | cons c rest ih =>
    intro path index
    obtain ⟨first, others⟩ := List.forall_mem_cons.1 each
    obtain ⟨found, marks⟩ := first (childPath path c index)
    obtain ⟨more, later⟩ := ih others path (index + 1)
    rw [inspectAll, childViolations]
    refine ⟨?_, List.forall_mem_cons.2 ⟨marks, later⟩⟩
    rw [newViolations, List.filter_append]
    exact congrArg₂ (· ++ ·) found more

/-- A check of an element that is evenly open reports the violations that count now, in order, and
leaves the element evenly open or settled. -/
theorem inspect_evenly {e : Element} (even : e.EvenlyOpen checked) :
    ∀ path, (s.inspect mode path e).2 = newViolations mode checked (s.violations path e) ∧
      (s.inspect mode path e).1.Everywhere fun n =>
        n.checked = true ∧ n.settled = (mode == .strict) := by
  induction e using Element.induction with
  | step e ih =>
    intro path
    obtain ⟨⟨here, unsettled⟩, inside⟩ := Element.everywhere_iff.1 even
    obtain ⟨below, marks⟩ :=
      inspectAll_evenly (fun c member => ih c member (inside c member)) path 0
    have own : (s.newFaults mode e).map (⟨·, path⟩) =
        newViolations mode checked ((s.ownFaults e).map (⟨·, path⟩)) := by
      rw [newFaults_eq_filter, here, newViolations, List.filter_map]
      rfl
    rw [inspect_of_open s mode path unsettled, violations_eq]
    refine ⟨?_, Element.everywhere_iff.2 ⟨⟨rfl, rfl⟩, marks⟩⟩
    rw [newViolations, List.filter_append]
    exact congrArg₂ (· ++ ·) own below

end Schema

/-! ### Two checks -/

namespace Validator

open Schema (newViolations)

variable {v : Validator} {e : Element} {mode : Mode} {checked : Bool}

theorem validate_of_root (root : e.tag = v.root) : v.validate e = v.schema.violations e.tag e := by
  rw [validate, if_pos root]

theorem inspect_evenly (root : e.tag = v.root) (even : e.EvenlyOpen checked) :
    (v.inspect mode e).2 = newViolations mode checked (v.validate e) := by
  rw [validate_of_root root]
  exact (Schema.inspect_evenly even e.tag).1

theorem unmarked_inspect (e : Element) : (v.inspect mode e).1.unmarked = e.unmarked :=
  v.schema.unmarked_inspect mode e e.tag

theorem tag_inspect (e : Element) : (v.inspect mode e).1.tag = e.tag :=
  (Element.unmarked_eq_iff.1 (unmarked_inspect e)).1

/-- A check changes nothing that validation looks at. -/
theorem validate_inspect (e : Element) : v.validate (v.inspect mode e).1 = v.validate e := by
  have same : v.schema.violations e.tag (v.inspect mode e).1 = v.schema.violations e.tag e :=
    v.schema.violations_congr e.tag (unmarked_inspect e)
  rw [validate, validate, tag_inspect, same]

theorem inspect_settled (settled : e.Settled) : v.inspect mode e = (e, []) :=
  v.schema.inspect_of_settled mode e.tag (Element.everywhere_iff.1 settled).1

/-- Of an element in which nothing has been validated, a tolerant check reports all violations but
those of missing children, and a strict check after it reports just these, each in their order.
Then everything in the element is settled, and no further check reports anything or changes
anything. A strict check alone reports all violations. None of these checks changes the element
but for how far it has been validated. -/
theorem phases_partition (v : Validator) {e : Element} (root : e.tag = v.root) (fresh : e.Fresh) :
    let first := v.inspect .tolerant e
    let second := v.inspect .strict first.1
    let whole := v.inspect .strict e
    first.2 = (v.validate e).filter (fun x => !x.fault.isMissingElement) ∧
    second.2 = (v.validate e).filter (fun x => x.fault.isMissingElement) ∧
    second.1.Settled ∧
    (∀ mode, v.inspect mode second.1 = (second.1, [])) ∧
    whole.2 = v.validate e ∧
    first.1.unmarked = e ∧ second.1.unmarked = e ∧ whole.1.unmarked = e := by
  intro first second whole
  have looked : first.1.EvenlyOpen true := (Schema.inspect_evenly fresh e.tag).2
  have sameRoot : first.1.tag = v.root := (tag_inspect e).trans root
  have settled : second.1.Settled := fun n inside =>
    ((Schema.inspect_evenly looked first.1.tag).2 n inside).2
  have kept : first.1.unmarked = e := (unmarked_inspect e).trans fresh.unmarked_eq_self
  refine ⟨?_, ?_, settled, fun mode => inspect_settled settled, ?_, kept, ?_, ?_⟩
  · rw [inspect_evenly root fresh]
    rfl
  · rw [inspect_evenly sameRoot looked, validate_inspect]
    rfl
  · rw [inspect_evenly root fresh]
    exact List.filter_eq_self.2 fun _ _ => rfl
  · exact (unmarked_inspect first.1).trans kept
  · exact (unmarked_inspect e).trans fresh.unmarked_eq_self

/-! ### A time signature without its lower half -/

/-- A validator for time signatures: beats, then a beat type. -/
def meter : Validator where
  root := "time"
  schema := {
    format := ""
    version := ""
    elements := [
      ("time", {
        attributes := [("symbol", { value := { values := ["common", "cut"] } })]
        content := .sequence [⟨.element "beats", 1, some 1⟩, ⟨.element "beat-type", 1, some 1⟩] }),
      ("beats", { content := .text {} }),
      ("beat-type", { content := .text {} })] }

def redThree : Element :=
  { tag := "time", attributes := [("colour", "red")],
    children := [{ tag := "beats", text := some "3" }] }

/-- The colour is reported at first, and that the beat type is missing in the end. -/
theorem phases_partition_redThree :
    redThree.tag = meter.root ∧ redThree.Fresh ∧
      (meter.inspect .tolerant redThree).2 = [⟨.unexpectedAttribute "colour", "time"⟩] ∧
      (meter.inspect .strict (meter.inspect .tolerant redThree).1).2 =
        [⟨.missingElement "beat-type", "time"⟩] ∧
      (meter.inspect .strict redThree).2 = meter.validate redThree := by
  have fresh : redThree.Fresh := Element.everywhere_iff.2 ⟨⟨rfl, rfl⟩, List.forall_mem_singleton.2
    (Element.everywhere_iff.2 ⟨⟨rfl, rfl⟩, List.forall_mem_nil _⟩)⟩
  obtain ⟨first, second, -, -, whole, -⟩ := phases_partition meter (e := redThree) rfl fresh
  refine ⟨rfl, fresh, ?_, ?_, whole⟩
  · rw [first]
    decide +kernel
  · rw [second]
    decide +kernel

end Validator

end ScoreScript
