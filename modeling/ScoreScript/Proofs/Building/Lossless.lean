import ScoreScript.Proofs.Building.Logging
import ScoreScript.Proofs.Building.Path

/-!
Nothing that is found is lost. A check passes over what has the text of an earlier report; if all
tags are plain, such a text says that the same was reported before. The numbers of children change
while others come in, but a child that is new comes after all others of its tag.
-/

namespace ScoreScript

/-! ### Where a reported text comes from -/

/-- A text that was reported for a piece at work: about its own fault, which was found, or about
something inside a child. There may have come other children before that child since. -/
inductive Work.Reports (rules : Schema) (h : History) (w : Work) (text : String) : Prop where
  | own (f : Fault) (finds : rules.Finds w.piece.tag f)
      (seen : ⟨w.piece.serial, w.own, f⟩ ∈ h.seen)
      (same : text = (⟨f, pathTo w.piece.tag []⟩ : Violation).text)
  | inside (tag : String) (i j : Nat) (c : Piece) (rest : List (String × Nat)) (f : Fault)
      (finds : rules.Finds tag f) (present : f.isMissingElement = false)
      (child : w.piece.children[j]? = some c) (later : i ≤ j)
      (plain : ∀ step ∈ rest, IsPlainTag step.1)
      (same : text = (⟨f, pathTo w.piece.tag ((c.tag, i) :: rest)⟩ : Violation).text)

/-- All that was reported for a piece at work has its place. -/
structure Work.Lossless (rules : Schema) (h : History) (w : Work) : Prop where
  plain : w.piece.Plain
  reports : ∀ text ∈ w.reported, w.Reports rules h text

namespace Piece

variable {s : Schema} {around : Bool} {mode : Mode} {own : Bool} {p : Piece}

theorem finds_of_mem_faults {f : Fault} (fault : f ∈ p.faults s) : s.Finds p.tag f := by
  have finds := Schema.finds_of_mem_ownFaults fault
  rwa [element_tag] at finds

/-- The faults at a spot are those of elements of one tag. -/
theorem finds_of_mem_spots {spot : Spot} (member : spot ∈ p.spots s around) :
    ∃ tag, ∀ f ∈ spot.entry.faults, s.Finds tag f := by
  induction p using induction generalizing around spot with
  | step p ih =>
    rw [spots_eq, List.mem_cons, innerSpots, mem_spotsAll] at member
    rcases member with rfl | ⟨i, c, inner, at_i, inside, rfl⟩
    · exact ⟨p.tag, fun f fault => finds_of_mem_faults fault⟩
    · obtain ⟨tag, finds⟩ := ih c (List.mem_of_getElem? at_i) inside
      exact ⟨tag, finds⟩

/-- Of what one check finds no two have the same text. -/
theorem mark_eq_of_text_eq (plain : p.Plain) {x y : Sighting} (hx : x ∈ p.sightings s mode own)
    (hy : y ∈ p.sightings s mode own) (same : x.violation.text = y.violation.text) :
    x.mark = y.mark := by
  obtain ⟨spot, inside, here⟩ := List.mem_flatMap.1 hx
  obtain ⟨spot', inside', here'⟩ := List.mem_flatMap.1 hy
  obtain ⟨f, new, rfl⟩ := List.mem_map.1 here
  obtain ⟨f', new', rfl⟩ := List.mem_map.1 here'
  obtain ⟨steps, message⟩ := Violation.steps_eq_of_text_eq plain.tag (plain.steps spot inside)
    (plain.steps spot' inside') same
  have sameSpot := p.spot_eq_of_steps_eq inside inside' steps
  subst sameSpot
  obtain ⟨tag, finds⟩ := finds_of_mem_spots inside
  have fault := (finds f (Entry.mem_news.1 new).2.1).text_inj (finds f' (Entry.mem_news.1 new').2.1)
    message
  rw [fault]

end Piece

/-- Nothing inside a piece at rest is new to a tolerant check. -/
theorem Entry.news_of_looked {e : Entry} (looked : e.checked = true ∨ e.settled = true) :
    e.news .tolerant = [] := by
  rcases looked with checked | settled
  · rw [List.eq_nil_iff_forall_not_mem]
    intro f new
    have missing := Entry.missing_of_news checked new
    rw [Entry.present_of_news new] at missing
    cases missing
  · exact Entry.news_of_settled settled

/-- What a check finds of which the text was reported was found before. -/
def Known (h : History) (reported : List String) (found : List Sighting) : Prop :=
  ∀ x ∈ found, x.violation.text ∈ reported → x.mark ∈ h.seen

theorem Known.mono {h h' : History} {reported : List String} {found : List Sighting}
    (known : Known h reported found) (more : h.seen ⊆ h'.seen) : Known h' reported found :=
  fun x member listed => more (known x member listed)

namespace Work

variable {rules : Schema} {h : History} {w : Work}

theorem Reports.mono {h' : History} {text : String} (reports : w.Reports rules h text)
    (more : h.seen ⊆ h'.seen) : w.Reports rules h' text := by
  cases reports with
  | own f finds seen same => exact .own f finds (more seen) same
  | inside tag i j c rest f finds present child later plain same =>
    exact .inside tag i j c rest f finds present child later plain same

theorem Lossless.mono {h' : History} (lossless : w.Lossless rules h) (more : h.seen ⊆ h'.seen) :
    w.Lossless rules h' :=
  ⟨lossless.plain, fun text member => (lossless.reports text member).mono more⟩

/-- The own fault that has the text of a report was found. -/
theorem Reports.seen_of_own {f : Fault} (plain : w.piece.Plain) (finds : rules.Finds w.piece.tag f)
    (reports : w.Reports rules h (⟨f, w.piece.tag⟩ : Violation).text) :
    ⟨w.piece.serial, w.own, f⟩ ∈ h.seen := by
  have none : ∀ step ∈ ([] : List (String × Nat)), IsPlainTag step.1 := fun _ => (nomatch ·)
  cases reports with
  | own f' finds' seen same =>
    obtain ⟨-, message⟩ := Violation.steps_eq_of_text_eq plain.tag none none same
    rwa [finds.text_inj finds' message]
  | inside tag i j c rest f' finds' present child later plain' same =>
    have tag' := (plain.children c (List.mem_of_getElem? child)).tag
    obtain ⟨steps, -⟩ := Violation.steps_eq_of_text_eq plain.tag none
      (List.forall_mem_cons.2 ⟨tag', plain'⟩) same
    cases steps

/-- A fault inside the child with a number that has the text of a report: there is another child
of that tag, which has the same number or comes later. -/
theorem Reports.child_of_inside {c : Piece} {i : Nat} {inner : Spot} {f : Fault}
    (plain : w.piece.Plain) (child : c.Plain) (inside : inner ∈ c.spots rules false)
    (reports : w.Reports rules h
      (⟨f, pathTo w.piece.tag ((c.tag, i) :: inner.steps)⟩ : Violation).text) :
    (∃ j c', w.piece.children[j]? = some c' ∧ i ≤ j ∧ c'.tag = c.tag) ∧
      ∃ tag f', rules.Finds tag f' ∧ f'.isMissingElement = false ∧ f.text = f'.text := by
  have steps : ∀ step ∈ (c.tag, i) :: inner.steps, IsPlainTag step.1 :=
    List.forall_mem_cons.2 ⟨child.tag, child.steps inner inside⟩
  cases reports with
  | own f' finds' seen same =>
    have none : ∀ step ∈ ([] : List (String × Nat)), IsPlainTag step.1 := fun _ => (nomatch ·)
    obtain ⟨place, -⟩ := Violation.steps_eq_of_text_eq plain.tag steps none same
    cases place
  | inside tag i' j c' rest f' finds' present child' later plain' same =>
    have tag' := (plain.children c' (List.mem_of_getElem? child')).tag
    obtain ⟨place, message⟩ := Violation.steps_eq_of_text_eq plain.tag steps
      (List.forall_mem_cons.2 ⟨tag', plain'⟩) same
    simp only [List.cons.injEq, Prod.mk.injEq] at place
    obtain ⟨⟨sameTag, rfl⟩, -⟩ := place
    exact ⟨⟨j, c', child', later, sameTag.symm⟩, tag, f', finds', present, message⟩

/-! ### Checks of a piece at work -/

/-- A new child comes after all others of its tag, so what is found inside it was not reported,
and nothing else is found inside. -/
theorem Lossless.known_of_adopt (lossless : w.Lossless rules h) (tracked : w.Tracked rules h)
    (rested : w.Rested rules h) (declared : rules.declares w.piece.tag = true) {child : Piece}
    (plain : child.Plain) :
    Known h w.reported ((w.piece.adopt w.type.order child).sightings rules .tolerant w.own) := by
  have unsettled : (w.piece.adopt w.type.order child).settled = false := by
    rw [Piece.adopt_settled]
    exact tracked.unsettled
  obtain ⟨⟨before, after, split, placed, others⟩, -⟩ :=
    Piece.children_adopt tracked.sorted child
  -- an old child was looked at
  have nothingNew {c : Piece} (old : c ∈ w.piece.children) {inner : Spot} {f : Fault}
      (inside : inner ∈ c.spots rules false) (new : f ∈ inner.entry.news .tolerant) : False := by
    rw [Entry.news_of_looked (rested.looked declared c old inner.entry
      (List.mem_map_of_mem inside))] at new
    cases new
  intro x found reported
  rcases mem_sightings_cases unsettled found with
    ⟨f, new, rfl⟩ | ⟨i, c, at_i, inner, inside, f, new, rfl⟩
  · simp only [Piece.adopt_serial]
    have finds := Piece.finds_of_mem_faults (Entry.mem_news.1 new).2.1
    rw [Piece.adopt_tag] at finds
    have reports := lossless.reports _ reported
    simp only [Piece.adopt_tag] at reports
    exact reports.seen_of_own lossless.plain finds
  · rw [placed] at at_i
    rcases Nat.lt_trichotomy i before.length with first | same | last
    · rw [List.getElem?_append_left first] at at_i
      have old : c ∈ w.piece.children := by
        rw [split]
        exact List.mem_append_left _ (List.mem_of_getElem? at_i)
      exact (nothingNew old inside new).elim
    · subst same
      rw [List.getElem?_append_right (Nat.le_refl _), Nat.sub_self] at at_i
      cases at_i
      have reports := lossless.reports _ reported
      simp only [Piece.adopt_tag] at reports
      obtain ⟨⟨j, c', at_j, later, tag⟩, -⟩ := reports.child_of_inside lossless.plain plain inside
      rw [split, List.getElem?_append_right later] at at_j
      exact absurd tag (others c' (List.mem_of_getElem? at_j))
    · obtain ⟨k, rfl⟩ := Nat.exists_eq_add_of_lt last
      rw [List.getElem?_append_right (by omega),
        show before.length + k + 1 - before.length = k + 1 by omega,
        List.getElem?_cons_succ] at at_i
      have old : c ∈ w.piece.children := by
        rw [split]
        exact List.mem_append_right _ (List.mem_of_getElem? at_i)
      exact (nothingNew old inside new).elim

/-- A strict check of a scope finds nothing inside but missing children, which were not reported
as long as the scope was open. -/
theorem Lossless.known_of_scope (lossless : w.Lossless rules h) (tracked : w.Tracked rules h)
    (rested : w.Rested rules h) (declared : rules.declares w.piece.tag = true) :
    Known h w.reported (w.piece.sightings rules .strict w.own) := by
  intro x found reported
  rcases mem_sightings_cases tracked.unsettled found with
    ⟨f, new, rfl⟩ | ⟨i, c, at_i, inner, inside, f, new, rfl⟩
  · have finds := Piece.finds_of_mem_faults (Entry.mem_news.1 new).2.1
    exact (lossless.reports _ reported).seen_of_own lossless.plain finds
  · have old := List.mem_of_getElem? at_i
    have missing : f.isMissingElement = true := by
      rcases rested.looked declared c old inner.entry (List.mem_map_of_mem inside) with
        checked | settled
      · exact Entry.missing_of_news checked new
      · rw [Entry.news_of_settled settled] at new
        cases new
    obtain ⟨-, tag, f', finds', present, message⟩ := (lossless.reports _ reported).child_of_inside
      lossless.plain (lossless.plain.children c old) inside
    obtain ⟨tag', finds⟩ := Piece.finds_of_mem_spots inside
    rw [(finds f (Entry.mem_news.1 new).2.1).isMissingElement_of_text finds' message missing]
      at present
    cases present

/-- With a child more all others still come as late as before, or later. -/
theorem Lossless.adopt (lossless : w.Lossless rules h) (tracked : w.Tracked rules h)
    {child : Piece} (plain : child.Plain) :
    ({ w with piece := w.piece.adopt w.type.order child } : Work).Lossless rules h := by
  obtain ⟨⟨before, after, split, placed, -⟩, -⟩ := Piece.children_adopt tracked.sorted child
  constructor
  · refine .intro _ ?_ fun c member => ?_
    · rw [Piece.adopt_tag]
      exact lossless.plain.tag
    · rcases (Piece.mem_children_adopt tracked.sorted).1 member with rfl | old
      · exact plain
      · exact lossless.plain.children c old
  · intro text member
    cases lossless.reports text member with
    | own f finds seen same =>
      refine .own f ?_ ?_ ?_ <;> simp only [Piece.adopt_tag, Piece.adopt_serial]
      · exact finds
      · exact seen
      · exact same
    | inside tag i j c rest f finds present child' later plain' same =>
      have moved : ∃ j', j ≤ j' ∧ (w.piece.adopt w.type.order child).children[j']? = some c := by
        rw [placed]
        rw [split] at child'
        by_cases first : j < before.length
        · rw [List.getElem?_append_left first] at child'
          exact ⟨j, Nat.le_refl _, by rw [List.getElem?_append_left first, child']⟩
        · rw [List.getElem?_append_right (by omega)] at child'
          refine ⟨j + 1, Nat.le_succ _, ?_⟩
          rw [List.getElem?_append_right (by omega),
            show j + 1 - before.length = (j - before.length) + 1 by omega, List.getElem?_cons_succ]
          exact child'
      obtain ⟨j', further, child''⟩ := moved
      refine .inside tag i j' c rest f finds present child'' (Nat.le_trans later further) plain' ?_
      simp only [Piece.adopt_tag]
      exact same

/-- After a tolerant check all that was reported has its place. -/
theorem Lossless.examine (lossless : w.Lossless rules h) (unsettled : w.piece.settled = false)
    (span : Span) (notes : List Note) :
    ({ w with
        piece := w.piece.examine .tolerant
        reported := ((w.piece.sightings rules .tolerant w.own).foldl (takeNote .tolerant span)
          (w.reported, notes)).1 } : Work).Lossless rules
      (h.saw ((w.piece.sightings rules .tolerant w.own).map (·.mark))) := by
  have examined {j : Nat} {c : Piece} (child : w.piece.children[j]? = some c) :
      (w.piece.examine .tolerant).children[j]? = some (c.examine .tolerant) := by
    rw [Piece.examine_of_open .tolerant unsettled, List.getElem?_map, child]
    rfl
  refine ⟨lossless.plain.examine .tolerant, fun text member => ?_⟩
  rcases mem_reported_takeNotes.1 member with old | ⟨x, found, rfl⟩
  · cases (lossless.reports text old).mono (h.seen_subset_saw _) with
    | own f finds seen same =>
      refine .own f ?_ ?_ ?_ <;> simp only [Piece.examine_tag, Piece.examine_serial]
      · exact finds
      · exact seen
      · exact same
    | inside tag i j c rest f finds present child later plain same =>
      refine .inside tag i j (c.examine .tolerant) rest f finds present (examined child) later
        plain ?_
      simp only [Piece.examine_tag]
      exact same
  · have seen := List.mem_append_left h.seen (List.mem_map_of_mem (f := (·.mark)) found)
    rcases mem_sightings_cases unsettled found with
      ⟨f, new, rfl⟩ | ⟨i, c, at_i, inner, inside, f, new, rfl⟩
    · have finds := Piece.finds_of_mem_faults (Entry.mem_news.1 new).2.1
      refine .own f ?_ ?_ ?_ <;> simp only [Piece.examine_tag, Piece.examine_serial]
      · exact finds
      · exact seen
      · rfl
    · obtain ⟨tag, finds⟩ := Piece.finds_of_mem_spots inside
      have child := lossless.plain.children c (List.mem_of_getElem? at_i)
      refine .inside tag i i (c.examine .tolerant) inner.steps f
        (finds f (Entry.mem_news.1 new).2.1) (Entry.present_of_news new) (examined at_i)
        (Nat.le_refl _) (child.steps inner inside) ?_
      simp only [Piece.examine_tag]
      rfl

end Work

namespace Bench

/-- All that was found is logged. -/
structure Lossless (b : Bench) : Prop where
  works : ∀ w ∈ b.works, w.Lossless b.rules b.history
  root : ∀ p ∈ b.root, p.Plain
  kept : ∀ m ∈ b.history.seen, m ∈ b.kept

theorem start_lossless (registry : Registry) : (start registry).Lossless :=
  ⟨fun _ member => (nomatch member), fun _ member => (nomatch member),
    fun _ member => (nomatch member)⟩

/-- A check logs what it finds, or it was logged before. -/
theorem Lossless.kept_check {b : Bench} (lossless : b.Lossless) {p : Piece} (plain : p.Plain)
    {mode : Mode} {own : Bool} {reported : List String}
    (known : Known b.history reported (p.sightings b.rules mode own)) (span : Span) :
    ∀ m ∈ (b.check mode span own p reported).2.history.seen,
      m ∈ (b.check mode span own p reported).2.kept := by
  cases declared : b.rules.declares p.tag with
  | false =>
    rw [check_of_undeclared declared]
    exact lossless.kept
  | true =>
    rw [check_of_declared declared]
    obtain ⟨new, taken, added⟩ :=
      exists_taken mode span (p.sightings b.rules mode own) reported b.notes
    simp only [added, Bench.kept, List.map_append]
    intro m member
    rw [List.mem_append]
    rcases List.mem_append.1 member with fresh | old
    · obtain ⟨x, found, rfl⟩ := List.mem_map.1 fresh
      rcases taken.complete x found with listed | ⟨n, inNew, same⟩
      · exact .inr (lossless.kept _ (known x found listed))
      · left
        rw [← p.mark_eq_of_text_eq plain (taken.sound n inNew).1 found same]
        exact List.mem_map_of_mem inNew
    · exact .inr (lossless.kept m old)

/-- A check of something that is not on the bench. -/
theorem Lossless.check {b : Bench} (lossless : b.Lossless) {p : Piece} (plain : p.Plain)
    {mode : Mode} {own : Bool} {reported : List String}
    (known : Known b.history reported (p.sightings b.rules mode own)) (span : Span) :
    (b.check mode span own p reported).2.Lossless where
  works := by
    rw [check_works, check_rules]
    exact fun w member => (lossless.works w member).mono (check_history_subset ..)
  root := by
    rw [check_root]
    exact lossless.root
  kept := lossless.kept_check plain known span

theorem Lossless.weaken {b b' : Bench} (lossless : b.Lossless) (works : b'.works ⊆ b.works)
    (root : b'.root = b.root) (rules : b'.rules = b.rules) (notes : b'.notes = b.notes)
    (seen : b'.history.seen = b.history.seen) : b'.Lossless where
  works w member := by
    rw [rules]
    refine (lossless.works w (works member)).mono ?_
    rw [seen]
    exact List.Subset.refl _
  root := by
    rw [root]
    exact lossless.root
  kept := by
    rw [Bench.kept, notes, seen]
    exact lossless.kept

theorem Lossless.pop {b : Bench} (lossless : b.Lossless) {w : Work} {below : List Work}
    (works : b.works = w :: below) :
    ({ b with works := below } : Bench).Lossless ∧ w.Lossless b.rules b.history := by
  have each := lossless.works
  rw [works] at each
  obtain ⟨top, rest⟩ := List.forall_mem_cons.1 each
  exact ⟨⟨rest, lossless.root, lossless.kept⟩, top⟩

theorem Lossless.push {b : Bench} (lossless : b.Lossless) {w : Work}
    (top : w.Lossless b.rules b.history) : ({ b with works := w :: b.works } : Bench).Lossless :=
  ⟨List.forall_mem_cons.2 ⟨top, lossless.works⟩, lossless.root, lossless.kept⟩

theorem Lossless.place {b : Bench} (lossless : b.Lossless) (tracked : b.Tracked) {p : Piece}
    (plain : p.Plain) (span : Span) : (b.place span p).Lossless := by
  cases works : b.works with
  | nil =>
    rw [place_nil works]
    exact ⟨lossless.works, fun q same => by cases same; exact plain, lossless.kept⟩
  | cons w below =>
    obtain ⟨rest, top⟩ := lossless.pop works
    obtain ⟨-, trackedTop, rested, -⟩ := tracked.pop works
    have noted : b.history.seen ⊆ (b.history.grow w).seen := by
      rw [History.seen_grow]
      exact List.Subset.refl _
    have rest' : ({ b with works := below, history := b.history.grow w } : Bench).Lossless :=
      rest.weaken (List.Subset.refl _) rfl rfl rfl (History.seen_grow ..)
    have grown := (top.adopt trackedTop plain).mono noted
    cases declared : b.rules.declares w.piece.tag with
    | false =>
      rw [place_undeclared works declared]
      exact (rest'.push grown).weaken (List.Subset.refl _) rfl (Registry.rules_record _ _) rfl rfl
    | true =>
      have known := Known.mono (top.known_of_adopt trackedTop rested declared plain) noted
      have checked := rest'.check grown.plain known span
      have declared' : b.rules.declares (w.piece.adopt w.type.order p).tag = true := by
        rwa [Piece.adopt_tag]
      have looked (works : List Work) := check_of_declared
        (b := { b with works, history := b.history.grow w }) declared' .tolerant span w.own
        w.reported
      rw [looked] at checked
      rw [place_on works, Bench.adopt, looked]
      have unsettled : (w.piece.adopt w.type.order p).settled = false := by
        rw [Piece.adopt_settled]
        exact trackedTop.unsettled
      refine checked.push (w := { w with piece := _, reported := _ }) ?_
      simp only [rules, Registry.rules_record]
      exact grown.examine unsettled span b.notes

theorem plain_check {p : Piece} (plain : p.Plain) (mode : Mode) (span : Span) (own : Bool)
    (reported : List String) (b : Bench) : (b.check mode span own p reported).1.1.Plain := by
  cases declared : b.rules.declares p.tag with
  | false =>
    rw [check_of_undeclared declared]
    exact plain
  | true =>
    rw [check_of_declared declared]
    exact plain.examine mode

theorem Lossless.reshaped {b : Bench} (lossless : b.Lossless) {w : Work} {below : List Work}
    (works : b.works = w :: below) {p : Piece} (shaped : Shaped w.piece p) :
    (b.reshaped w below p).Lossless := by
  obtain ⟨rest, top⟩ := lossless.pop works
  have shapes := shaped.shapes b.rules
  have changed : ({ w with piece := p } : Work).Lossless b.rules b.history := by
    constructor
    · refine .intro p ?_ ?_
      · rw [shapes.tag]
        exact top.plain.tag
      · rw [shapes.children]
        exact top.plain.children
    · intro text member
      cases top.reports text member with
      | own f finds seen same =>
        refine .own f ?_ ?_ ?_ <;> simp only [shapes.tag, shapes.serial]
        · exact finds
        · exact seen
        · exact same
      | inside tag i j c rest f finds present child later plain same =>
        refine .inside tag i j c rest f finds present ?_ later plain ?_
        · simp only [shapes.children]
          exact child
        · simp only [shapes.tag]
          exact same
  exact (rest.push changed).weaken (List.Subset.refl _) rfl rfl rfl (History.seen_reshape ..)

theorem Lossless.closed {b : Bench} (lossless : b.Lossless) (tracked : b.Tracked) {w : Work}
    {below : List Work} (works : b.works = w :: below) (scope : w.own = false) :
    (b.closed w below).Lossless := by
  obtain ⟨rest, top⟩ := lossless.pop works
  obtain ⟨-, trackedTop, rested, -⟩ := tracked.pop works
  obtain ⟨after, -, -⟩ := tracked.closing works scope
  refine Lossless.place ?_ after (plain_check top.plain ..) w.span
  cases declared : b.rules.declares w.piece.tag with
  | false =>
    rw [check_of_undeclared (b := { b with works := below }) declared]
    exact rest.weaken (List.Subset.refl _) rfl (Registry.rules_record _ _) rfl rfl
  | true =>
    have known := top.known_of_scope trackedTop rested declared
    rw [scope] at known
    exact rest.check top.plain known w.span

theorem Lossless.settledRoot {b : Bench} (lossless : b.Lossless) {p : Piece}
    (root : b.root = some p) : (b.settledRoot p).Lossless := by
  have plain := lossless.root p root
  have known : Known b.history [] (p.sightings b.rules .strict false) :=
    fun _ _ reported => (nomatch reported)
  have checked := lossless.check plain known .nowhere
  refine ⟨checked.works, fun q same => ?_, checked.kept⟩
  cases same
  exact plain_check plain ..

end Bench

/-- All types of a catalogue have plain tags. -/
def Catalogue.HasPlainTags (c : Catalogue) : Prop :=
  ∀ id type, c.get? id = some type → IsPlainTag type.tag

namespace Bench

theorem Lossless.change {c : Catalogue} (plainTags : c.HasPlainTags) {b b' : Bench}
    (lossless : b.Lossless) (tracked : b.Tracked) (change : Change c b b') : b'.Lossless := by
  cases change with
  | nothing => exact lossless
  | begun id type span known =>
    refine ⟨List.forall_mem_cons.2 ⟨⟨.intro _ (plainTags id type known) ?_, ?_⟩, lossless.works⟩,
      lossless.root, lossless.kept⟩
    · exact fun _ => (nomatch ·)
    · exact fun _ => (nomatch ·)
  | reshaped w below p works own shaped => exact lossless.reshaped works shaped
  | attached w below span works own =>
    obtain ⟨rest, top⟩ := lossless.pop works
    have released : (b.released w below).Lossless :=
      rest.weaken (List.Subset.refl _) rfl rfl rfl (History.seen_release ..)
    exact released.place (tracked.released works).1 top.plain span
  | opened w below works own =>
    obtain ⟨rest, top⟩ := lossless.pop works
    have scope : ({ w with scope := some b.nextScope, reported := [] } : Work).Lossless b.rules
        b.history := ⟨top.plain, fun _ => (nomatch ·)⟩
    exact (rest.push scope).weaken (List.Subset.refl _) rfl rfl rfl (History.seen_release ..)
  | discarded =>
    obtain ⟨lost, history, seen, given⟩ := b.discard_eq rfl
    rw [given]
    exact lossless.weaken (List.dropWhile_sublist _).subset rfl rfl rfl seen
  | closed w below works scope => exact lossless.closed tracked works scope
  | settled p works root unsettled => exact lossless.settledRoot root

theorem performAll_lossless {c : Catalogue} (plainTags : c.HasPlainTags) {b : Bench}
    (tracked : b.Tracked) (lossless : b.Lossless) (actions : List Action) :
    (b.performAll c actions).Lossless := by
  induction actions generalizing b with
  | nil => exact lossless
  | cons action rest ih =>
    have change := perform_change c b action
    exact ih (tracked.change change) (lossless.change plainTags tracked change)

end Bench

end ScoreScript
