import Mathlib.Data.List.Nodup
import ScoreScript.Proofs.Building.Piece

/-!
A piece seen as a list. For every element in it there is a spot: the steps that lead to it, and
an entry with what validation knows about it. A check of the whole piece does the same to each
entry on its own, which `spots_examine` and `inspect_element` say.
-/

namespace ScoreScript

/-- What validation knows about an element: its faults, whether it was checked since it changed,
and whether it or something around it is settled. -/
structure Entry where
  serial : Nat
  faults : List Fault
  checked : Bool
  settled : Bool

namespace Entry

def examine (mode : Mode) (e : Entry) : Entry :=
  if e.settled then e else { e with checked := true, settled := mode == .strict }

/-- The faults that a check reports. -/
def news (mode : Mode) (e : Entry) : List Fault :=
  if e.settled then [] else e.faults.filter (Schema.reports mode e.checked)

@[simp] theorem examine_serial (mode : Mode) (e : Entry) : (e.examine mode).serial = e.serial := by
  unfold examine
  split <;> rfl

theorem mem_news {mode : Mode} {e : Entry} {f : Fault} :
    f ∈ e.news mode ↔
      e.settled = false ∧ f ∈ e.faults ∧ Schema.reports mode e.checked f = true := by
  unfold news
  cases e.settled <;> simp

theorem examine_of_settled {mode : Mode} {e : Entry} (settled : e.settled = true) :
    e.examine mode = e := by
  rw [examine, if_pos settled]

theorem examine_of_open {mode : Mode} {e : Entry} (unsettled : e.settled = false) :
    e.examine mode = { e with checked := true, settled := mode == .strict } := by
  rw [examine, if_neg (by rw [unsettled]; exact Bool.false_ne_true)]

theorem news_of_settled {mode : Mode} {e : Entry} (settled : e.settled = true) :
    e.news mode = [] := by
  rw [news, if_pos settled]

end Entry

/-- An entry, and the tag and number of a child for each step that leads to its element. -/
structure Spot where
  steps : List (String × Nat)
  entry : Entry

namespace Spot

/-- The spot as seen from the parent. -/
def under (tag : String) (index : Nat) (spot : Spot) : Spot :=
  { spot with steps := (tag, index) :: spot.steps }

def examine (mode : Mode) (spot : Spot) : Spot :=
  { spot with entry := spot.entry.examine mode }

end Spot

/-- The path that goes on from another. -/
def pathTo (path : String) (steps : List (String × Nat)) : String :=
  steps.foldl (fun path step => s!"{path}/{step.1}[{step.2}]") path

namespace Schema

/-- Its own faults depend on nothing but what one sees of an element without looking inside its
children. -/
theorem ownFaults_congr (s : Schema) {a b : Element} (tag : a.tag = b.tag)
    (attributes : a.attributes = b.attributes) (text : a.text = b.text)
    (children : a.children.map (·.tag) = b.children.map (·.tag)) :
    s.ownFaults a = s.ownFaults b := by
  unfold ownFaults ElementRule.faults
  rw [tag, attributes, text, children]

end Schema

namespace Piece

variable (s : Schema) (around : Bool)

def faults (p : Piece) : List Fault :=
  s.ownFaults p.element

/-- The entry of a piece inside something settled or not. -/
def entry (p : Piece) : Entry :=
  ⟨p.serial, p.faults s, p.checked, around || p.settled⟩

mutual

/-- The spots of the elements in a piece, its own first. -/
def spots (around : Bool) : Piece → List Spot
  | ⟨serial, tag, attributes, children, text, checked, settled⟩ =>
    ⟨[], entry s around ⟨serial, tag, attributes, children, text, checked, settled⟩⟩ ::
      spotsAll (around || settled) 0 children

def spotsAll (around : Bool) (index : Nat) : List Piece → List Spot
  | [] => []
  | p :: rest => (p.spots around).map (Spot.under p.tag index) ++ spotsAll around (index + 1) rest

end

/-- The spots of the elements inside a piece. -/
def innerSpots (p : Piece) : List Spot :=
  spotsAll s (around || p.settled) 0 p.children

theorem spots_eq (p : Piece) :
    p.spots s around = ⟨[], p.entry s around⟩ :: p.innerSpots s around := by
  obtain ⟨serial, tag, attributes, children, text, checked, settled⟩ := p
  rw [spots]
  rfl

variable {s around}

theorem mem_spotsAll {index : Nat} {children : List Piece} {spot : Spot} :
    spot ∈ spotsAll s around index children ↔
      ∃ (i : Nat) (c : Piece) (inner : Spot), children[i]? = some c ∧
        inner ∈ c.spots s around ∧ spot = inner.under c.tag (index + i) := by
  induction children generalizing index with
  | nil => simp [spotsAll]
  | cons p rest ih =>
    rw [spotsAll, List.mem_append, ih, List.mem_map]
    constructor
    · rintro (⟨inner, member, rfl⟩ | ⟨i, c, inner, at_i, member, rfl⟩)
      · exact ⟨0, p, inner, rfl, member, rfl⟩
      · refine ⟨i + 1, c, inner, at_i, member, ?_⟩
        rw [Nat.add_assoc, Nat.add_comm 1]
    · rintro ⟨i, c, inner, at_i, member, rfl⟩
      cases i with
      | zero =>
        cases at_i
        exact .inl ⟨inner, member, rfl⟩
      | succ i =>
        refine .inr ⟨i, c, inner, at_i, member, ?_⟩
        rw [Nat.add_assoc, Nat.add_comm 1]

/-- The steps tell the spots of a piece apart. -/
theorem spot_eq_of_steps_eq (p : Piece) {around : Bool} {a b : Spot} (ha : a ∈ p.spots s around)
    (hb : b ∈ p.spots s around) (steps : a.steps = b.steps) : a = b := by
  induction p using induction generalizing around a b with
  | step p ih =>
    rw [spots_eq, List.mem_cons, innerSpots, mem_spotsAll] at ha hb
    rcases ha with rfl | ⟨i, c, inner, at_i, member, rfl⟩ <;>
      rcases hb with rfl | ⟨j, d, inner', at_j, member', rfl⟩
    · rfl
    · cases steps
    · cases steps
    · simp only [Spot.under, List.cons.injEq, Prod.mk.injEq, Nat.zero_add] at steps
      obtain ⟨⟨-, rfl⟩, rest⟩ := steps
      rw [at_i] at at_j
      cases at_j
      rw [ih c (List.mem_of_getElem? at_i) member member' rest]

/-! ### Entries -/

variable (s around)

/-- The entries of the elements in a piece, its own first. -/
def entries (p : Piece) : List Entry :=
  (p.spots s around).map (·.entry)

theorem map_entry_spotsAll (index : Nat) (children : List Piece) :
    (spotsAll s around index children).map (·.entry) = children.flatMap (entries s around) := by
  induction children generalizing index with
  | nil => rfl
  | cons p rest ih =>
    rw [spotsAll, List.map_append, List.map_map, ih, List.flatMap_cons]
    rfl

theorem entries_eq (p : Piece) :
    p.entries s around =
      p.entry s around :: p.children.flatMap (entries s (around || p.settled)) := by
  rw [entries, spots_eq, List.map_cons, innerSpots, map_entry_spotsAll]

/-- The serial numbers in a piece. -/
def serials (p : Piece) : List Nat :=
  (p.entries (default : Schema) false).map (·.serial)

theorem map_serial_entries (p : Piece) : (p.entries s around).map (·.serial) = p.serials := by
  unfold serials
  generalize (default : Schema) = s'
  generalize false = around'
  induction p using induction generalizing around around' with
  | step p ih =>
    rw [entries_eq, entries_eq, List.map_cons, List.map_cons, List.map_flatMap, List.map_flatMap]
    congr 1
    refine List.flatMap_congr fun c member => ?_
    exact ih c member _ _

theorem serials_eq (p : Piece) : p.serials = p.serial :: p.children.flatMap serials := by
  rw [serials, entries_eq, List.map_cons, List.map_flatMap]
  congr 1
  exact List.flatMap_congr fun c _ => c.map_serial_entries _ _

variable {s around}

/-- Serial numbers tell the spots of a piece apart, if no number comes twice. -/
theorem spot_eq_of_serial_eq {p : Piece} (distinct : p.serials.Nodup) {a b : Spot}
    (ha : a ∈ p.spots s around) (hb : b ∈ p.spots s around)
    (serial : a.entry.serial = b.entry.serial) : a = b := by
  rw [← p.map_serial_entries s around, entries, List.map_map] at distinct
  exact List.inj_on_of_nodup_map distinct ha hb serial

/-! ### Checks -/

theorem settled_of_mem_spots (p : Piece) {spot : Spot} (member : spot ∈ p.spots s true) :
    spot.entry.settled = true := by
  induction p using induction generalizing spot with
  | step p ih =>
    rw [spots_eq, List.mem_cons, innerSpots, mem_spotsAll] at member
    rcases member with rfl | ⟨i, c, inner, at_i, member, rfl⟩
    · rfl
    · change inner.entry.settled = true
      exact ih c (List.mem_of_getElem? at_i) member

theorem spots_of_settled (around : Bool) {p : Piece} (settled : p.settled = true) :
    p.spots s around = p.spots s true := by
  rw [spots_eq, spots_eq, innerSpots, innerSpots, entry, entry, settled, Bool.or_true,
    Bool.or_true]

theorem faults_examine (mode : Mode) (p : Piece) : (p.examine mode).faults s = p.faults s := by
  apply s.ownFaults_congr
  · rw [element_tag, element_tag, examine_tag]
  · rw [element_attributes, element_attributes, examine_attributes]
  · rw [element_text, element_text, examine_text]
  · rw [element_children_tags, element_children_tags, examine_children_tags]

theorem examine_eq_self {mode : Mode} {spots : List Spot}
    (settled : ∀ spot ∈ spots, spot.entry.settled = true) :
    spots.map (Spot.examine mode) = spots := by
  conv => rhs; rw [← List.map_id spots]
  refine List.map_congr_left fun spot member => ?_
  rw [Spot.examine, Entry.examine_of_settled (settled spot member)]
  rfl

theorem spotsAll_examine {mode : Mode} {children : List Piece}
    (each : ∀ c ∈ children,
      (c.examine mode).spots s (mode == .strict) = (c.spots s false).map (Spot.examine mode))
    (index : Nat) :
    spotsAll s (mode == .strict) index (children.map (Piece.examine mode)) =
      (spotsAll s false index children).map (Spot.examine mode) := by
  induction children generalizing index with
  | nil => rfl
  | cons p rest ih =>
    rw [List.map_cons, spotsAll, spotsAll, each p List.mem_cons_self, examine_tag,
      ih (fun c member => each c (List.mem_cons_of_mem _ member)), List.map_append, List.map_map,
      List.map_map]
    rfl

private theorem spots_examine_inside (mode : Mode) (p : Piece) :
    (p.examine mode).spots s (mode == .strict) = (p.spots s false).map (Spot.examine mode) := by
  induction p using induction with
  | step p ih =>
    cases h : p.settled with
    | true =>
      rw [examine_of_settled mode h, spots_of_settled _ h, spots_of_settled false h]
      exact (examine_eq_self fun spot member => p.settled_of_mem_spots member).symm
    | false =>
      have own : (p.examine mode).entry s (mode == .strict) = (p.entry s false).examine mode := by
        have unsettled : (p.entry s false).settled = false := by
          rw [entry, h]
          rfl
        rw [Entry.examine, if_neg (by rw [unsettled]; exact Bool.false_ne_true), entry, entry,
          faults_examine, examine_serial, examine_of_open mode h]
        simp
      rw [spots_eq, spots_eq, List.map_cons, own, innerSpots, innerSpots, examine_of_open mode h, h]
      simp only [Bool.or_self]
      rw [spotsAll_examine ih]
      rfl

/-- A check does the same to each entry. -/
theorem spots_examine (mode : Mode) (p : Piece) :
    (p.examine mode).spots s false = (p.spots s false).map (Spot.examine mode) := by
  rw [← spots_examine_inside]
  cases h : p.settled with
  | true =>
    rw [examine_of_settled mode h, spots_of_settled false h, spots_of_settled (mode == .strict) h]
  | false =>
    rw [spots_eq, spots_eq, innerSpots, innerSpots, entry, entry, examine_of_open mode h]
    simp

theorem entries_examine (mode : Mode) (p : Piece) :
    (p.examine mode).entries s false = (p.entries s false).map (Entry.examine mode) := by
  rw [entries, entries, spots_examine, List.map_map, List.map_map]
  rfl

@[simp] theorem serials_examine (mode : Mode) (p : Piece) :
    (p.examine mode).serials = p.serials := by
  unfold serials
  rw [entries_examine, List.map_map]
  exact List.map_congr_left fun e _ => e.examine_serial mode

end Piece

/-! ### What checks report -/

namespace Spot

/-- The violations that a check reports at a spot, `path` leading to the whole. -/
def reported (mode : Mode) (path : String) (spot : Spot) : List Violation :=
  (spot.entry.news mode).map (⟨·, pathTo path spot.steps⟩)

/-- All violations at a spot. -/
def violations (path : String) (spot : Spot) : List Violation :=
  spot.entry.faults.map (⟨·, pathTo path spot.steps⟩)

theorem reported_under (mode : Mode) (path tag : String) (index : Nat) (spot : Spot) :
    (spot.under tag index).reported mode path =
      spot.reported mode s!"{path}/{tag}[{index}]" :=
  rfl

theorem violations_under (path tag : String) (index : Nat) (spot : Spot) :
    (spot.under tag index).violations path = spot.violations s!"{path}/{tag}[{index}]" :=
  rfl

end Spot

namespace Schema

theorem inspect_of_settled (s : Schema) (mode : Mode) (path : String) {e : Element}
    (settled : e.settled = true) : s.inspect mode path e = (e, []) := by
  obtain ⟨tag, attributes, children, text, checked, settled'⟩ := e
  subst settled
  rw [inspect]
  rfl

theorem inspect_of_open (s : Schema) (mode : Mode) (path : String) {e : Element}
    (unsettled : e.settled = false) :
    s.inspect mode path e =
      ({ e with
          children := (s.inspectAll mode path 0 e.children).1
          checked := true
          settled := mode == .strict },
        (s.newFaults mode e).map (⟨·, path⟩) ++ (s.inspectAll mode path 0 e.children).2) := by
  obtain ⟨tag, attributes, children, text, checked, settled'⟩ := e
  subst unsettled
  rw [inspect]
  rfl

end Schema

namespace Piece

theorem reported_of_settled {mode : Mode} {path : String} {spots : List Spot}
    (settled : ∀ spot ∈ spots, spot.entry.settled = true) :
    spots.flatMap (Spot.reported mode path) = [] := by
  rw [List.flatMap_eq_nil_iff]
  intro spot member
  rw [Spot.reported, Entry.news_of_settled (settled spot member), List.map_nil]

theorem inspectAll_elements {s : Schema} {mode : Mode} {children : List Piece}
    (each : ∀ c ∈ children, ∀ path, s.inspect mode path c.element =
      ((c.examine mode).element, (c.spots s false).flatMap (Spot.reported mode path)))
    (path : String) (index : Nat) :
    s.inspectAll mode path index (children.map element) =
      ((children.map (examine mode)).map element,
        (spotsAll s false index children).flatMap (Spot.reported mode path)) := by
  induction children generalizing index with
  | nil => rfl
  | cons p rest ih =>
    rw [List.map_cons, Schema.inspectAll, each p List.mem_cons_self,
      ih fun c member => each c (List.mem_cons_of_mem _ member)]
    simp only [List.map_cons, spotsAll, List.flatMap_append, List.flatMap_map,
      Spot.reported_under, childPath, element_tag]

/-- A check of an element looks at each of its spots. -/
theorem inspect_element (s : Schema) (mode : Mode) (path : String) (p : Piece) :
    s.inspect mode path p.element =
      ((p.examine mode).element, (p.spots s false).flatMap (Spot.reported mode path)) := by
  induction p using induction generalizing path with
  | step p ih =>
    cases h : p.settled with
    | true =>
      rw [s.inspect_of_settled mode path (by rw [element_settled, h]), examine_of_settled mode h,
        spots_of_settled false h, reported_of_settled fun spot => p.settled_of_mem_spots]
    | false =>
      rw [s.inspect_of_open mode path (by rw [element_settled, h]), element_children,
        inspectAll_elements ih]
      have own : (s.newFaults mode p.element).map (⟨·, path⟩) =
          Spot.reported mode path ⟨[], p.entry s false⟩ := by
        rw [s.newFaults_eq_filter, Spot.reported, Entry.news, entry, h, if_neg (by simp),
          element_checked]
        rfl
      rw [spots_eq, List.flatMap_cons, own, innerSpots, h, examine_of_open mode h]
      refine Prod.ext ?_ rfl
      simp [element_eq]

theorem childViolations_elements {s : Schema} {children : List Piece}
    (each : ∀ c ∈ children, ∀ path around, s.violations path c.element =
      (c.spots s around).flatMap (Spot.violations path))
    (path : String) (around : Bool) (index : Nat) :
    s.childViolations path index (children.map element) =
      (spotsAll s around index children).flatMap (Spot.violations path) := by
  induction children generalizing index with
  | nil => rfl
  | cons p rest ih =>
    rw [List.map_cons, Schema.childViolations, each p List.mem_cons_self _ around,
      ih fun c member => each c (List.mem_cons_of_mem _ member)]
    simp only [spotsAll, List.flatMap_append, List.flatMap_map, Spot.violations_under, childPath,
      element_tag]

/-- The violations in an element are those at its spots. -/
theorem violations_element (s : Schema) (path : String) (around : Bool) (p : Piece) :
    s.violations path p.element = (p.spots s around).flatMap (Spot.violations path) := by
  induction p using induction generalizing path around with
  | step p ih =>
    have unfolded : s.violations path p.element =
        (s.ownFaults p.element).map (⟨·, path⟩) ++
          s.childViolations path 0 (p.children.map element) := by
      rw [element_eq, Schema.violations]
    rw [unfolded, childViolations_elements ih path (around || p.settled), spots_eq,
      List.flatMap_cons]
    rfl

end Piece

end ScoreScript
