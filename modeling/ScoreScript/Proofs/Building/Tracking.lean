import ScoreScript.Proofs.Building.Bench
import ScoreScript.Proofs.Building.Order
import ScoreScript.Proofs.Schema.Persistence

/-!
What the flags of an element say about the past. That an element is checked means that its
faults were found, but for missing children; that it is settled means that all were. Until then
no check has found a missing child, and none but those of its own construction has found anything
before the element was checked.
-/

namespace ScoreScript

/-- A fault of an element was found. -/
def History.Found (h : History) (serial : Nat) (f : Fault) : Prop :=
  ∃ own, ⟨serial, own, f⟩ ∈ h.seen

/-- Nothing was found for an element in between, and what was noted of it still is. -/
structure History.SameFor (h h' : History) (serial : Nat) : Prop where
  seen : ∀ m : Mark, m.serial = serial → (m ∈ h'.seen ↔ m ∈ h.seen)
  reshaped : serial ∈ h.reshaped → serial ∈ h'.reshaped
  stale : serial ∈ h'.stale ↔ serial ∈ h.stale

theorem History.SameFor.refl (h : History) (serial : Nat) : h.SameFor h serial :=
  ⟨fun _ _ => Iff.rfl, id, Iff.rfl⟩

/-- What the flags of an element that has its place say. -/
structure Entry.Tracked (h : History) (e : Entry) : Prop where
  found_of_checked : e.checked = true →
    ∀ f ∈ e.faults, f.isMissingElement = false → h.Found e.serial f
  found_of_settled : e.settled = true → ∀ f ∈ e.faults, h.Found e.serial f
  held_back : e.settled = false → ∀ f own, f.isMissingElement = true → ⟨e.serial, own, f⟩ ∉ h.seen
  untouched : e.settled = false → e.checked = false → ∀ f, ⟨e.serial, false, f⟩ ∉ h.seen
  /-- What was found once the construction was done is there to stay. -/
  stays : ∀ f, ⟨e.serial, false, f⟩ ∈ h.seen → f ∈ e.faults
  /-- What the construction found can only pass with what it did afterwards. -/
  passes : ∀ f, ⟨e.serial, true, f⟩ ∈ h.seen →
    f ∈ e.faults ∨ f.Passing ∧ e.serial ∈ h.reshaped
  stale : e.settled = false → e.checked = false → e.serial ∈ h.stale
  /-- What changed was looked at again. -/
  again : e.checked = true ∨ e.settled = true → e.serial ∈ h.stale →
    ∀ f ∈ e.faults, f.isMissingElement = false → ⟨e.serial, false, f⟩ ∈ h.seen

namespace Entry

theorem Tracked.mono {h h' : History} {e : Entry} (tracked : e.Tracked h)
    (same : h.SameFor h' e.serial) : e.Tracked h' where
  found_of_checked checked f fault present := by
    obtain ⟨own, member⟩ := tracked.found_of_checked checked f fault present
    exact ⟨own, (same.seen _ rfl).2 member⟩
  found_of_settled settled f fault := by
    obtain ⟨own, member⟩ := tracked.found_of_settled settled f fault
    exact ⟨own, (same.seen _ rfl).2 member⟩
  held_back unsettled f own missing member :=
    tracked.held_back unsettled f own missing ((same.seen _ rfl).1 member)
  untouched unsettled unchecked f member :=
    tracked.untouched unsettled unchecked f ((same.seen _ rfl).1 member)
  stays f member := tracked.stays f ((same.seen _ rfl).1 member)
  passes f member := by
    refine (tracked.passes f ((same.seen _ rfl).1 member)).imp_right fun passed => ?_
    exact ⟨passed.1, same.reshaped passed.2⟩
  stale unsettled unchecked := same.stale.2 (tracked.stale unsettled unchecked)
  again looked stale f fault present :=
    (same.seen _ rfl).2 (tracked.again looked (same.stale.1 stale) f fault present)

/-- A first check reports what the mode counts. -/
theorem news_of_unchecked {mode : Mode} {e : Entry} {f : Fault} (unsettled : e.settled = false)
    (unchecked : e.checked = false) (fault : f ∈ e.faults) (present : f.isMissingElement = false) :
    f ∈ e.news mode := by
  rw [mem_news, unchecked]
  refine ⟨unsettled, fault, ?_⟩
  cases mode
  · simp [Schema.reports, present]
  · rfl

/-- A strict check reports missing children, whatever was checked before. -/
theorem news_of_missing {e : Entry} {f : Fault} (unsettled : e.settled = false)
    (fault : f ∈ e.faults) (missing : f.isMissingElement = true) : f ∈ e.news .strict := by
  rw [mem_news]
  refine ⟨unsettled, fault, ?_⟩
  simp [Schema.reports, missing]

/-- A tolerant check reports no missing children. -/
theorem present_of_news {e : Entry} {f : Fault} (new : f ∈ e.news .tolerant) :
    f.isMissingElement = false := by
  have reported := (mem_news.1 new).2.2
  simp only [Schema.reports, Bool.and_eq_true, Bool.not_eq_true'] at reported
  exact reported.2

/-- Of an element that was checked only missing children are reported. -/
theorem missing_of_news {mode : Mode} {e : Entry} {f : Fault} (checked : e.checked = true)
    (new : f ∈ e.news mode) : f.isMissingElement = true := by
  have reported := (mem_news.1 new).2.2
  rw [checked] at reported
  cases mode
  · cases reported
  · simpa [Schema.reports] using reported

/-- What a check adds to the history of an element. -/
structure Adds (mode : Mode) (e : Entry) (own : Bool) (h h' : History) : Prop where
  seen : ∀ m : Mark, m.serial = e.serial →
    (m ∈ h'.seen ↔ m ∈ h.seen ∨ m.own = own ∧ m.fault ∈ e.news mode)
  reshaped : h'.reshaped = h.reshaped
  stale : h'.stale = h.stale

theorem Adds.of_mem {mode : Mode} {e : Entry} {own : Bool} {h h' : History}
    (adds : e.Adds mode own h h') {f : Fault} (old : h.Found e.serial f) : h'.Found e.serial f := by
  obtain ⟨own, member⟩ := old
  exact ⟨own, (adds.seen _ rfl).2 (.inl member)⟩

theorem Adds.of_news {mode : Mode} {e : Entry} {own : Bool} {h h' : History}
    (adds : e.Adds mode own h h') {f : Fault} (new : f ∈ e.news mode) : h'.Found e.serial f :=
  ⟨own, (adds.seen _ rfl).2 (.inr ⟨rfl, new⟩)⟩

/-- A check finds what it has to, and the flags say so. -/
theorem Tracked.examine {mode : Mode} {h h' : History} {e : Entry} (tracked : e.Tracked h)
    (adds : e.Adds mode false h h') : (e.examine mode).Tracked h' := by
  cases settled : e.settled with
  | true =>
    rw [examine_of_settled settled]
    refine tracked.mono ⟨fun m same => ?_, ?_, ?_⟩
    · rw [adds.seen m same, news_of_settled settled]
      simp
    · rw [adds.reshaped]
      exact id
    · rw [adds.stale]
  | false =>
    rw [examine_of_open settled]
    have found (f : Fault) (fault : f ∈ e.faults) (present : f.isMissingElement = false) :
        h'.Found e.serial f := by
      cases checked : e.checked with
      | true => exact adds.of_mem (tracked.found_of_checked checked f fault present)
      | false => exact adds.of_news (news_of_unchecked settled checked fault present)
    constructor
    · intro _
      exact found
    · intro strict f fault
      cases missing : f.isMissingElement with
      | true =>
        rw [eq_of_beq strict] at adds
        exact adds.of_news (news_of_missing settled fault missing)
      | false => exact found f fault missing
    · intro tolerant f own missing member
      rcases (adds.seen _ rfl).1 member with old | ⟨-, new⟩
      · exact tracked.held_back settled f own missing old
      · cases mode with
        | tolerant =>
          rw [present_of_news new] at missing
          cases missing
        | strict => cases tolerant
    · intro _ unchecked
      cases unchecked
    · intro f member
      rcases (adds.seen _ rfl).1 member with old | ⟨-, new⟩
      · exact tracked.stays f old
      · exact (mem_news.1 new).2.1
    · intro f member
      rcases (adds.seen _ rfl).1 member with old | ⟨own, -⟩
      · rw [adds.reshaped]
        exact tracked.passes f old
      · cases own
    · intro _ unchecked
      cases unchecked
    · intro _ stale f fault present
      rw [adds.stale] at stale
      rw [adds.seen _ rfl]
      cases checked : e.checked with
      | true => exact .inl (tracked.again (.inl checked) stale f fault present)
      | false => exact .inr ⟨rfl, news_of_unchecked settled checked fault present⟩

end Entry

/-- After the construction nothing but missing children is found, unless something changed. -/
theorem Entry.Tracked.stale_of_news {mode : Mode} {h : History} {e : Entry} {f : Fault}
    (tracked : e.Tracked h) (new : f ∈ e.news mode) (present : f.isMissingElement = false) :
    e.serial ∈ h.stale := by
  cases checked : e.checked with
  | false => exact tracked.stale (Entry.mem_news.1 new).1 checked
  | true =>
    rw [Entry.missing_of_news checked new] at present
    cases present

/-- What the flags of a piece at work say, and of those inside it. -/
structure Work.Tracked (rules : Schema) (h : History) (w : Work) : Prop where
  unsettled : w.piece.settled = false
  sorted : w.piece.Sorted w.type.order
  found_of_checked : w.piece.checked = true →
    ∀ f ∈ w.piece.faults rules, f.isMissingElement = false → h.Found w.piece.serial f
  held_back : ∀ f own, f.isMissingElement = true → ⟨w.piece.serial, own, f⟩ ∉ h.seen
  not_later : w.own = true → ∀ f, ⟨w.piece.serial, false, f⟩ ∉ h.seen
  /-- Without a validator nothing is found. -/
  unseen : rules.declares w.piece.tag = false → ∀ f own, ⟨w.piece.serial, own, f⟩ ∉ h.seen
  /-- What is found again and again is reported once. -/
  reported : ∀ f, ⟨w.piece.serial, w.own, f⟩ ∈ h.seen →
    (⟨f, w.piece.tag⟩ : Violation).text ∈ w.reported
  stays : ∀ f, ⟨w.piece.serial, false, f⟩ ∈ h.seen → f ∈ w.piece.faults rules
  passes : ∀ f, ⟨w.piece.serial, true, f⟩ ∈ h.seen →
    f ∈ w.piece.faults rules ∨ f.Passing ∧ w.piece.serial ∈ h.reshaped
  parent : ∀ f, ⟨w.piece.serial, true, f⟩ ∈ h.seen → w.piece.children.isEmpty = false
  fresh : w.own = true → w.piece.serial ∉ h.stale
  stale : w.own = false → w.piece.checked = false → w.piece.serial ∈ h.stale
  again : w.piece.checked = true → w.piece.serial ∈ h.stale →
    ∀ f ∈ w.piece.faults rules, f.isMissingElement = false → ⟨w.piece.serial, false, f⟩ ∈ h.seen
  inside : ∀ c ∈ w.piece.children, ∀ e ∈ c.entries rules false, e.Tracked h

/-- What holds of a piece at work between two actions: all that is inside it was looked at. -/
structure Work.Rested (rules : Schema) (h : History) (w : Work) : Prop where
  looked : rules.declares w.piece.tag = true →
    ∀ c ∈ w.piece.children, ∀ e ∈ c.entries rules false, e.checked = true ∨ e.settled = true
  untouched : w.piece.checked = false → ∀ f, ⟨w.piece.serial, false, f⟩ ∉ h.seen

namespace Piece

/-- A new child makes no fault go away but that of a missing one. -/
theorem faults_adopt (s : Schema) {p : Piece} {order : List String} (sorted : p.Sorted order)
    (child : Piece) {f : Fault} (fault : f ∈ p.faults s) (present : f.isMissingElement = false) :
    f ∈ (p.adopt order child).faults s := by
  obtain ⟨⟨before, after, split, placed, -⟩, -⟩ := children_adopt sorted child
  refine s.ownFaults_mono ?_ ?_ ?_ ?_ fault present
  · rw [element_tag, element_tag, adopt_tag]
  · rw [element_attributes, element_attributes, adopt_eq]
  · rw [element_text, element_text, adopt_eq]
  · rw [element_children_tags, element_children_tags, split, placed, List.map_append,
      List.map_append, List.map_cons]
    exact (List.sublist_cons_self _ _).append_left _

end Piece

theorem Piece.serial_mem_serials {rules : Schema} {around : Bool} {p : Piece} {e : Entry}
    (member : e ∈ p.entries rules around) : e.serial ∈ p.serials := by
  rw [← p.map_serial_entries rules around]
  exact List.mem_map_of_mem member

theorem Piece.mem_serials_self (p : Piece) : p.serial ∈ p.serials := by
  rw [serials_eq]
  exact List.mem_cons_self

theorem Piece.serials_child_subset {p c : Piece} (child : c ∈ p.children) :
    c.serials ⊆ p.serials := by
  intro n member
  rw [serials_eq]
  exact List.mem_cons_of_mem _ (List.mem_flatMap.2 ⟨c, child, member⟩)

/-- No number in a child is that of its parent. -/
theorem Piece.serial_ne_of_child {rules : Schema} {around : Bool} {p c : Piece}
    (distinct : p.serials.Nodup) (child : c ∈ p.children) {e : Entry}
    (member : e ∈ c.entries rules around) : e.serial ≠ p.serial := by
  rw [serials_eq, List.nodup_cons] at distinct
  rintro same
  exact distinct.1 (List.mem_flatMap.2 ⟨c, child, same ▸ serial_mem_serials member⟩)

namespace History

variable {h : History} {n : Nat}

theorem sameFor_reshape (h : History) (p : Piece) (n : Nat) : h.SameFor (h.reshape p) n := by
  unfold reshape
  split
  · exact .refl h n
  · exact ⟨fun _ _ => Iff.rfl, List.mem_cons_of_mem _, Iff.rfl⟩

theorem sameFor_release {p : Piece} (other : n ≠ p.serial) : h.SameFor (h.release p) n := by
  unfold release
  split
  · exact .refl h n
  · exact ⟨fun _ _ => Iff.rfl, id, by simp [other]⟩

theorem sameFor_grow {w : Work} (other : n ≠ w.piece.serial) : h.SameFor (h.grow w) n := by
  unfold grow
  split
  · exact .refl h n
  · exact ⟨fun _ _ => Iff.rfl, id, by simp [other]⟩

end History

namespace Work

theorem Tracked.mono {rules : Schema} {h h' : History} {w : Work} (tracked : w.Tracked rules h)
    (same : ∀ n ∈ w.piece.serials, h.SameFor h' n) : w.Tracked rules h' := by
  have own := same w.piece.serial w.piece.mem_serials_self
  have back {own' : Bool} {f : Fault} (member : ⟨w.piece.serial, own', f⟩ ∈ h'.seen) :
      ⟨w.piece.serial, own', f⟩ ∈ h.seen := (own.seen _ rfl).1 member
  exact {
    unsettled := tracked.unsettled
    sorted := tracked.sorted
    found_of_checked := fun checked f fault present => by
      obtain ⟨own', member⟩ := tracked.found_of_checked checked f fault present
      exact ⟨own', (own.seen _ rfl).2 member⟩
    held_back := fun f own' missing member => tracked.held_back f own' missing (back member)
    not_later := fun owned f member => tracked.not_later owned f (back member)
    unseen := fun undeclared f own' member => tracked.unseen undeclared f own' (back member)
    reported := fun f member => tracked.reported f (back member)
    stays := fun f member => tracked.stays f (back member)
    passes := fun f member => (tracked.passes f (back member)).imp_right fun passed =>
      ⟨passed.1, own.reshaped passed.2⟩
    parent := fun f member => tracked.parent f (back member)
    fresh := fun owned member => tracked.fresh owned (own.stale.1 member)
    stale := fun scope unchecked => own.stale.2 (tracked.stale scope unchecked)
    again := fun checked stale f fault present =>
      (own.seen _ rfl).2 (tracked.again checked (own.stale.1 stale) f fault present)
    inside := fun c child e member => (tracked.inside c child e member).mono
      (same _ (Piece.serials_child_subset child (Piece.serial_mem_serials member))) }

end Work

theorem Work.Rested.mono {rules : Schema} {h h' : History} {w : Work} (rested : w.Rested rules h)
    (same : h.SameFor h' w.piece.serial) : w.Rested rules h' where
  looked := rested.looked
  untouched unchecked f member := rested.untouched unchecked f ((same.seen _ rfl).1 member)

/-! ### Checks -/

section Checks

variable {rules : Schema} {mode : Mode} {own : Bool} {p : Piece} {h : History}

theorem mem_marks {m : Mark} :
    m ∈ (p.sightings rules mode own).map (·.mark) ↔
      ∃ spot ∈ p.spots rules false, m.serial = spot.entry.serial ∧
        m.own = (own && spot.steps.isEmpty) ∧ m.fault ∈ spot.entry.news mode := by
  simp only [Piece.sightings, List.map_flatMap, List.mem_flatMap, Spot.sightings, List.map_map,
    List.mem_map, Function.comp]
  refine exists_congr fun spot => and_congr_right fun _ => ?_
  constructor
  · rintro ⟨f, new, rfl⟩
    exact ⟨rfl, rfl, new⟩
  · rintro ⟨serial, own', new⟩
    exact ⟨m.fault, new, by rw [← serial, ← own']⟩

/-- What a check finds is found for the whole or for something inside it. -/
theorem mem_sightings_cases (unsettled : p.settled = false) {x : Sighting}
    (member : x ∈ p.sightings rules mode own) :
    (∃ f ∈ (p.entry rules false).news mode, x = ⟨⟨p.serial, own, f⟩, p.tag⟩) ∨
      ∃ i c, p.children[i]? = some c ∧ ∃ inner ∈ c.spots rules false,
        ∃ f ∈ inner.entry.news mode,
          x = ⟨⟨inner.entry.serial, false, f⟩, pathTo p.tag ((c.tag, i) :: inner.steps)⟩ := by
  obtain ⟨spot, at_spot, here⟩ := List.mem_flatMap.1 member
  obtain ⟨f, new, rfl⟩ := List.mem_map.1 here
  rw [Piece.spots_eq, Piece.innerSpots, unsettled, List.mem_cons, Piece.mem_spotsAll] at at_spot
  rcases at_spot with rfl | ⟨i, c, inner, at_i, inside, rfl⟩
  · refine .inl ⟨f, new, ?_⟩
    rw [List.isEmpty_nil, Bool.and_true]
    rfl
  · refine .inr ⟨i, c, at_i, inner, inside, f, new, ?_⟩
    simp [Spot.under]

theorem mem_marks_cases (unsettled : p.settled = false) {m : Mark}
    (member : m ∈ (p.sightings rules mode own).map (·.mark)) :
    (m.serial = p.serial ∧ m.own = own ∧ m.fault ∈ (p.entry rules false).news mode) ∨
      ∃ c ∈ p.children, ∃ e ∈ c.entries rules false,
        m.serial = e.serial ∧ m.own = false ∧ m.fault ∈ e.news mode := by
  obtain ⟨x, found, rfl⟩ := List.mem_map.1 member
  rcases mem_sightings_cases unsettled found with
    ⟨f, new, rfl⟩ | ⟨i, c, at_i, inner, inside, f, new, rfl⟩
  · exact .inl ⟨rfl, rfl, new⟩
  · exact .inr ⟨c, List.mem_of_getElem? at_i, inner.entry, List.mem_map_of_mem inside, rfl, rfl,
      new⟩

/-- A check adds nothing for elements elsewhere. -/
theorem saw_elsewhere {n : Nat} (elsewhere : n ∉ p.serials) :
    h.SameFor (h.saw ((p.sightings rules mode own).map (·.mark))) n where
  seen m same := by
    rw [History.saw, List.mem_append, mem_marks]
    refine or_iff_right ?_
    rintro ⟨spot, member, serial, -⟩
    apply elsewhere
    rw [← same, serial]
    exact Piece.serial_mem_serials (List.mem_map_of_mem member)
  reshaped := id
  stale := Iff.rfl

/-- A check adds its news at each spot. -/
theorem saw_adds (distinct : p.serials.Nodup) {spot : Spot} (member : spot ∈ p.spots rules false) :
    spot.entry.Adds mode (own && spot.steps.isEmpty) h
      (h.saw ((p.sightings rules mode own).map (·.mark))) where
  seen m same := by
    rw [History.saw, List.mem_append, mem_marks, or_comm]
    refine or_congr_right ⟨?_, fun new => ⟨spot, member, same, new⟩⟩
    rintro ⟨other, member', serial, new⟩
    rw [Piece.spot_eq_of_serial_eq distinct member member' (same.symm.trans serial)]
    exact new
  reshaped := rfl
  stale := rfl

theorem saw_adds_own (distinct : p.serials.Nodup) :
    (p.entry rules false).Adds mode own h
      (h.saw ((p.sightings rules mode own).map (·.mark))) := by
  have first : ⟨[], p.entry rules false⟩ ∈ p.spots rules false := by
    rw [Piece.spots_eq]
    exact List.mem_cons_self
  have adds : (p.entry rules false).Adds mode (own && true) h
      (h.saw ((p.sightings rules mode own).map (·.mark))) := saw_adds distinct first
  rwa [Bool.and_true] at adds

theorem saw_adds_inside (distinct : p.serials.Nodup) (unsettled : p.settled = false) {c : Piece}
    (child : c ∈ p.children) {e : Entry} (member : e ∈ c.entries rules false) :
    e.Adds mode false h (h.saw ((p.sightings rules mode own).map (·.mark))) := by
  obtain ⟨i, at_i⟩ := List.mem_iff_getElem?.1 child
  obtain ⟨inner, inside, rfl⟩ := List.mem_map.1 member
  have spot : inner.under c.tag (0 + i) ∈ p.spots rules false := by
    rw [Piece.spots_eq, Piece.innerSpots, unsettled]
    exact List.mem_cons_of_mem _ (Piece.mem_spotsAll.2 ⟨i, c, inner, at_i, inside, rfl⟩)
  have adds : inner.entry.Adds mode (own && false) h
      (h.saw ((p.sightings rules mode own).map (·.mark))) := saw_adds distinct spot
  rwa [Bool.and_false] at adds

theorem saw_adds_later (distinct : p.serials.Nodup) {e : Entry}
    (member : e ∈ p.entries rules false) :
    e.Adds mode false h (h.saw ((p.sightings rules mode false).map (·.mark))) := by
  obtain ⟨spot, inside, rfl⟩ := List.mem_map.1 member
  have adds : spot.entry.Adds mode (false && spot.steps.isEmpty) h
      (h.saw ((p.sightings rules mode false).map (·.mark))) := saw_adds distinct inside
  rwa [Bool.false_and] at adds

/-- Inside a piece that is checked everything is tracked as before. -/
theorem inside_examine {rules : Schema} {mode : Mode} {own : Bool} {p : Piece} {h : History}
    (distinct : p.serials.Nodup) (unsettled : p.settled = false)
    (inside : ∀ c ∈ p.children, ∀ e ∈ c.entries rules false, e.Tracked h) :
    ∀ c ∈ (p.examine mode).children, ∀ e ∈ c.entries rules false,
      e.Tracked (h.saw ((p.sightings rules mode own).map (·.mark))) := by
  intro c child e member
  rw [Piece.examine_of_open mode unsettled] at child
  obtain ⟨c, child', rfl⟩ := List.mem_map.1 child
  rw [Piece.entries_examine] at member
  obtain ⟨e, member', rfl⟩ := List.mem_map.1 member
  exact (inside c child' e member').examine (saw_adds_inside distinct unsettled child' member')

end Checks

namespace Work

variable {rules : Schema} {h : History} {w : Work}

/-- A piece that gets a child is tracked as before. -/
theorem Tracked.adopt (tracked : w.Tracked rules h) (distinct : w.piece.serials.Nodup)
    {child : Piece} (entries : ∀ e ∈ child.entries rules false, e.Tracked h)
    (apart : w.piece.serial ∉ child.serials) :
    ({ w with piece := w.piece.adopt w.type.order child } : Work).Tracked rules (h.grow w) := by
  have present {f : Fault} {own : Bool} (seen : ⟨w.piece.serial, own, f⟩ ∈ h.seen) :
      f.isMissingElement = false := by
    cases missing : f.isMissingElement with
    | true => exact absurd seen (tracked.held_back f own missing)
    | false => rfl
  constructor <;> simp only [Piece.adopt_serial, Piece.adopt_tag, Piece.adopt_checked,
    Piece.adopt_settled, History.seen_grow, History.reshaped_grow]
  · exact tracked.unsettled
  · exact (Piece.children_adopt tracked.sorted child).2
  · intro unchecked
    cases unchecked
  · exact tracked.held_back
  · exact tracked.not_later
  · exact tracked.unseen
  · exact tracked.reported
  · intro f seen
    exact Piece.faults_adopt rules tracked.sorted child (tracked.stays f seen) (present seen)
  · intro f seen
    refine (tracked.passes f seen).imp_left fun fault => ?_
    exact Piece.faults_adopt rules tracked.sorted child fault (present seen)
  · intro f _
    exact Piece.isEmpty_children_adopt tracked.sorted child
  · intro own
    have own' : w.own = true := own
    rw [History.stale_grow_of_own own']
    exact tracked.fresh own'
  · exact fun scope _ => History.mem_stale_grow scope
  · intro unchecked
    cases unchecked
  · intro c member e inside
    rcases (Piece.mem_children_adopt tracked.sorted).1 member with rfl | old
    · refine (entries e inside).mono (History.sameFor_grow fun same => ?_)
      exact apart (same ▸ Piece.serial_mem_serials inside)
    · refine (tracked.inside c old e inside).mono (History.sameFor_grow ?_)
      exact Piece.serial_ne_of_child distinct old inside

/-- A tolerant check reports what is new, and the flags say so. -/
theorem Tracked.examine (tracked : w.Tracked rules h) (distinct : w.piece.serials.Nodup)
    (parent : w.piece.children.isEmpty = false) (declared : rules.declares w.piece.tag = true)
    (span : Span) (notes : List Note) :
    ({ w with
        piece := w.piece.examine .tolerant
        reported := ((w.piece.sightings rules .tolerant w.own).foldl (takeNote .tolerant span)
          (w.reported, notes)).1 } : Work).Tracked rules
      (h.saw ((w.piece.sightings rules .tolerant w.own).map (·.mark))) := by
  have adds : (w.piece.entry rules false).Adds .tolerant w.own h
      (h.saw ((w.piece.sightings rules .tolerant w.own).map (·.mark))) := saw_adds_own distinct
  have unsettled : (w.piece.entry rules false).settled = false := tracked.unsettled
  have saw {own : Bool} {f : Fault} := adds.seen ⟨w.piece.serial, own, f⟩ rfl
  constructor <;> simp only [Piece.examine_serial, Piece.examine_tag, Piece.faults_examine]
  · rw [Piece.examine_of_open .tolerant tracked.unsettled]
    rfl
  · exact Piece.sorted_examine tracked.sorted .tolerant
  · intro _ f fault present
    cases checked : w.piece.checked with
    | true => exact adds.of_mem (tracked.found_of_checked checked f fault present)
    | false => exact adds.of_news (Entry.news_of_unchecked unsettled checked fault present)
  · intro f own missing seen
    rcases saw.1 seen with old | ⟨-, new⟩
    · exact tracked.held_back f own missing old
    · rw [Entry.present_of_news new] at missing
      cases missing
  · intro own f seen
    rcases saw.1 seen with old | ⟨own', -⟩
    · exact tracked.not_later own f old
    · have own'' : w.own = true := own
      rw [own''] at own'
      cases own'
  · intro undeclared
    rw [declared] at undeclared
    cases undeclared
  · intro f seen
    rw [mem_reported_takeNotes]
    rcases saw.1 seen with old | ⟨-, new⟩
    · exact .inl (tracked.reported f old)
    · right
      refine ⟨⟨⟨w.piece.serial, w.own, f⟩, w.piece.tag⟩, ?_, rfl⟩
      rw [Piece.sightings, Piece.spots_eq, List.flatMap_cons, List.mem_append]
      left
      rw [Spot.sightings, List.isEmpty_nil, Bool.and_true]
      exact List.mem_map.2 ⟨f, new, rfl⟩
  · intro f seen
    rcases saw.1 seen with old | ⟨-, new⟩
    · exact tracked.stays f old
    · exact (Entry.mem_news.1 new).2.1
  · intro f seen
    rcases saw.1 seen with old | ⟨-, new⟩
    · exact tracked.passes f old
    · exact .inl (Entry.mem_news.1 new).2.1
  · intro _ _
    rw [Piece.examine_of_open .tolerant tracked.unsettled, List.isEmpty_map]
    exact parent
  · exact tracked.fresh
  · intro _ unchecked
    rw [Piece.examine_of_open .tolerant tracked.unsettled] at unchecked
    cases unchecked
  · intro _ stale f fault present
    have scope : w.own = false := Bool.eq_false_iff.2 fun own => tracked.fresh own stale
    cases checked : w.piece.checked with
    | true => exact saw.2 (.inl (tracked.again checked stale f fault present))
    | false =>
      exact saw.2 (.inr ⟨scope.symm, Entry.news_of_unchecked unsettled checked fault present⟩)
  · exact inside_examine distinct tracked.unsettled tracked.inside

theorem rested_examine (w : Work) (unsettled : w.piece.settled = false)
    (reported : List String) :
    ({ w with piece := w.piece.examine .tolerant, reported } : Work).Rested rules h where
  looked _ c child e member := by
    rw [Piece.examine_of_open .tolerant unsettled] at child
    obtain ⟨c, -, rfl⟩ := List.mem_map.1 child
    rw [Piece.entries_examine] at member
    obtain ⟨e, -, rfl⟩ := List.mem_map.1 member
    cases settled : e.settled with
    | true => exact .inr (by rw [Entry.examine_of_settled settled, settled])
    | false => exact .inl (by rw [Entry.examine_of_open settled])
  untouched unchecked := by
    rw [Piece.examine_of_open .tolerant unsettled] at unchecked
    cases unchecked

/-- Without a validator there is nothing to look at. -/
theorem rested_of_undeclared (tracked : w.Tracked rules h)
    (undeclared : rules.declares w.piece.tag = false) : w.Rested rules h where
  looked declared := by
    rw [undeclared] at declared
    cases declared
  untouched _ f := tracked.unseen undeclared f false

/-! ### Pieces that are done -/

/-- What holds of all entries holds of its own and of those inside. -/
theorem forall_entries {p : Piece} (unsettled : p.settled = false) {P : Entry → Prop}
    (own : P (p.entry rules false)) (inside : ∀ c ∈ p.children, ∀ e ∈ c.entries rules false, P e) :
    ∀ e ∈ p.entries rules false, P e := by
  rw [Piece.entries_eq, unsettled]
  refine List.forall_mem_cons.2 ⟨own, fun e member => ?_⟩
  obtain ⟨c, child, member⟩ := List.mem_flatMap.1 member
  exact inside c child e member

/-- A piece whose construction is done has its place. -/
theorem Tracked.entries_of_own (tracked : w.Tracked rules h) (distinct : w.piece.serials.Nodup)
    (own : w.own = true) : ∀ e ∈ w.piece.entries rules false, e.Tracked (h.release w.piece) := by
  have unsettled : (w.piece.entry rules false).settled = false := tracked.unsettled
  refine forall_entries tracked.unsettled ?_ fun c child e member =>
    (tracked.inside c child e member).mono
      (History.sameFor_release (Piece.serial_ne_of_child distinct child member))
  constructor <;> try simp only [History.Found, History.seen_release, History.reshaped_release]
  · exact tracked.found_of_checked
  · intro settled
    rw [unsettled] at settled
    cases settled
  · exact fun _ => tracked.held_back
  · exact fun _ _ => tracked.not_later own
  · exact fun f seen => absurd seen (tracked.not_later own f)
  · exact tracked.passes
  · exact fun _ => History.mem_stale_release
  · rintro (checked | settled) stale
    · rw [History.stale_release_of_checked checked] at stale
      exact absurd stale (tracked.fresh own)
    · rw [unsettled] at settled
      cases settled

/-- What is kept open as a scope has found nothing yet as such, and reports all anew. -/
theorem Tracked.opened (tracked : w.Tracked rules h) (distinct : w.piece.serials.Nodup)
    (own : w.own = true) (scope : Nat) :
    ({ w with scope := some scope, reported := [] } : Work).Tracked rules
      (h.release w.piece) := by
  constructor <;> try simp only [History.Found, History.seen_release, History.reshaped_release]
  · exact tracked.unsettled
  · exact tracked.sorted
  · exact tracked.found_of_checked
  · exact tracked.held_back
  · intro open'
    cases open'
  · exact tracked.unseen
  · exact fun f seen => absurd seen (tracked.not_later own f)
  · exact tracked.stays
  · exact tracked.passes
  · exact tracked.parent
  · intro open'
    cases open'
  · exact fun _ => History.mem_stale_release
  · intro checked stale
    rw [History.stale_release_of_checked checked] at stale
    exact absurd stale (tracked.fresh own)
  · exact fun c child e member => (tracked.inside c child e member).mono
      (History.sameFor_release (Piece.serial_ne_of_child distinct child member))

/-- So has a scope for whose tag there is no validator. -/
theorem Tracked.entries_of_undeclared (tracked : w.Tracked rules h) (scope : w.own = false)
    (undeclared : rules.declares w.piece.tag = false) :
    ∀ e ∈ w.piece.entries rules false, e.Tracked h := by
  have unsettled : (w.piece.entry rules false).settled = false := tracked.unsettled
  refine forall_entries tracked.unsettled ?_ tracked.inside
  constructor
  · exact tracked.found_of_checked
  · intro settled
    rw [unsettled] at settled
    cases settled
  · exact fun _ => tracked.held_back
  · exact fun _ _ f => tracked.unseen undeclared f false
  · exact fun f seen => absurd seen (tracked.unseen undeclared f false)
  · exact tracked.passes
  · exact fun _ => tracked.stale scope
  · rintro (checked | settled)
    · exact tracked.again checked
    · rw [unsettled] at settled
      cases settled

/-- A scope that is checked strictly is settled. -/
theorem Tracked.entries_of_closed (tracked : w.Tracked rules h)
    (distinct : w.piece.serials.Nodup) :
    ∀ e ∈ (w.piece.examine .strict).entries rules false,
      e.Tracked (h.saw ((w.piece.sightings rules .strict false).map (·.mark))) := by
  have adds : (w.piece.entry rules false).Adds .strict false h
      (h.saw ((w.piece.sightings rules .strict false).map (·.mark))) := saw_adds_own distinct
  have unsettled : (w.piece.entry rules false).settled = false := tracked.unsettled
  have saw {own : Bool} {f : Fault} := adds.seen ⟨w.piece.serial, own, f⟩ rfl
  have found (f : Fault) (fault : f ∈ w.piece.faults rules) :
      (h.saw ((w.piece.sightings rules .strict false).map (·.mark))).Found w.piece.serial f := by
    cases missing : f.isMissingElement with
    | true => exact adds.of_news (Entry.news_of_missing unsettled fault missing)
    | false =>
      cases checked : w.piece.checked with
      | true => exact adds.of_mem (tracked.found_of_checked checked f fault missing)
      | false => exact adds.of_news (Entry.news_of_unchecked unsettled checked fault missing)
  rw [Piece.entries_examine]
  refine List.forall_mem_map.2 (forall_entries tracked.unsettled ?_ fun c child e member =>
    (tracked.inside c child e member).examine
      (saw_adds_inside distinct tracked.unsettled child member))
  rw [Entry.examine_of_open unsettled]
  constructor
  · exact fun _ f fault _ => found f fault
  · exact fun _ => found
  · intro open'
    cases open'
  · intro open'
    cases open'
  · intro f seen
    rcases saw.1 seen with old | ⟨-, new⟩
    · exact tracked.stays f old
    · exact (Entry.mem_news.1 new).2.1
  · intro f seen
    rcases saw.1 seen with old | ⟨own, -⟩
    · exact tracked.passes f old
    · cases own
  · intro open'
    cases open'
  · intro _ stale f fault present
    cases checked : w.piece.checked with
    | true => exact saw.2 (.inl (tracked.again checked stale f fault present))
    | false => exact saw.2 (.inr ⟨rfl, Entry.news_of_unchecked unsettled checked fault present⟩)

end Work

end ScoreScript
