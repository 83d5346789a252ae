import Mathlib.Data.List.Flatten
import ScoreScript.Proofs.Building.Tracking

/-!
What every action on the bench keeps up. Main statement, `performAll_tracked`: whatever is done
to a new bench, its flags say what was found. No serial number comes twice on the bench, so that
what is found in one place leaves all others as they were.
-/

namespace ScoreScript.Bench

/-- The pieces that are not at work: the root and what was lost. -/
def done (b : Bench) : List Piece :=
  b.root.toList ++ b.lost

/-- The serial numbers on the bench. -/
def serials (b : Bench) : List Nat :=
  b.works.flatMap (·.piece.serials) ++ b.done.flatMap Piece.serials

/-- The flags on the bench say what was found. -/
structure Tracked (b : Bench) : Prop where
  works : ∀ w ∈ b.works, w.Tracked b.rules b.history
  rested : ∀ w ∈ b.works, w.Rested b.rules b.history
  done : ∀ p ∈ b.done, ∀ e ∈ p.entries b.rules false, e.Tracked b.history
  distinct : b.serials.Nodup
  fresh : ∀ n ∈ b.serials, n < b.nextSerial
  seen_fresh : ∀ m ∈ b.history.seen, m.serial < b.nextSerial
  stale_fresh : ∀ n ∈ b.history.stale, n < b.nextSerial
  /-- A construction is only ever checked tolerantly. -/
  present : ∀ m ∈ b.history.seen, m.own = true → m.fault.isMissingElement = false
  /-- What is found after the construction was held back, or something changed. -/
  later : ∀ m ∈ b.history.seen, m.own = false → m.fault.isMissingElement = false →
    m.serial ∈ b.history.stale

/-- A piece that is not on the bench, with numbers that were given out. -/
structure Apart (b : Bench) (p : Piece) : Prop where
  distinct : p.serials.Nodup
  apart : ∀ n ∈ p.serials, n ∉ b.serials
  fresh : ∀ n ∈ p.serials, n < b.nextSerial

theorem start_tracked (registry : Registry) : (start registry).Tracked where
  works _ member := nomatch member
  rested _ member := nomatch member
  done _ member := nomatch member
  distinct := List.nodup_nil
  fresh _ member := nomatch member
  seen_fresh _ member := nomatch member
  stale_fresh _ member := nomatch member
  present _ member := nomatch member
  later _ member := nomatch member

/-! ### Taking from the bench and putting on it -/

/-- The flags say no less when there is less on the bench. -/
theorem Tracked.weaken {b b' : Bench} (tracked : b.Tracked) (works : b'.works.Sublist b.works)
    (done : b'.done.Sublist b.done) (rules : b'.rules = b.rules)
    (given : b.nextSerial ≤ b'.nextSerial) (history : b'.history = b.history) : b'.Tracked := by
  have less : b'.serials.Sublist b.serials := by
    exact (works.flatMap _).append (done.flatMap _)
  constructor <;> (try rw [rules]) <;> try rw [history]
  · exact fun w member => tracked.works w (works.subset member)
  · exact fun w member => tracked.rested w (works.subset member)
  · exact fun p member => tracked.done p (done.subset member)
  · exact tracked.distinct.sublist less
  · exact fun n member => Nat.lt_of_lt_of_le (tracked.fresh n (less.subset member)) given
  · exact fun m member => Nat.lt_of_lt_of_le (tracked.seen_fresh m member) given
  · exact fun n member => Nat.lt_of_lt_of_le (tracked.stale_fresh n member) given
  · exact tracked.present
  · exact tracked.later

/-- Nor when something is noted of an element that is not on the bench. -/
theorem Tracked.noted {b : Bench} (tracked : b.Tracked) {h : History}
    (same : ∀ n ∈ b.serials, b.history.SameFor h n) (seen : h.seen = b.history.seen)
    (stale : b.history.stale ⊆ h.stale) (fresh : ∀ n ∈ h.stale, n < b.nextSerial) :
    ({ b with history := h } : Bench).Tracked where
  works w member := (tracked.works w member).mono fun n inside =>
    same n (List.mem_append_left _ (List.mem_flatMap.2 ⟨w, member, inside⟩))
  rested w member := (tracked.rested w member).mono (same _ (List.mem_append_left _
    (List.mem_flatMap.2 ⟨w, member, w.piece.mem_serials_self⟩)))
  done p inside e member := (tracked.done p inside e member).mono (same _
    (List.mem_append_right _ (List.mem_flatMap.2 ⟨p, inside, Piece.serial_mem_serials member⟩)))
  distinct := tracked.distinct
  fresh := tracked.fresh
  seen_fresh := by
    rw [seen]
    exact tracked.seen_fresh
  stale_fresh := fresh
  present := by
    rw [seen]
    exact tracked.present
  later := by
    rw [seen]
    exact fun m member own present => stale (tracked.later m member own present)

theorem Tracked.recorded {b : Bench} (tracked : b.Tracked) (tag : String) :
    ({ b with registry := b.registry.record tag } : Bench).Tracked :=
  tracked.weaken (List.Sublist.refl _) (List.Sublist.refl _) (Registry.rules_record _ _)
    (Nat.le_refl _) rfl

theorem serials_cons {b : Bench} {w : Work} {below : List Work} (works : b.works = w :: below) :
    b.serials = w.piece.serials ++ ({ b with works := below } : Bench).serials := by
  rw [serials, works, List.flatMap_cons, List.append_assoc]
  rfl

theorem Tracked.pop {b : Bench} (tracked : b.Tracked) {w : Work} {below : List Work}
    (works : b.works = w :: below) :
    ({ b with works := below } : Bench).Tracked ∧ w.Tracked b.rules b.history ∧
      w.Rested b.rules b.history ∧ ({ b with works := below } : Bench).Apart w.piece := by
  have member : w ∈ b.works := by
    rw [works]
    exact List.mem_cons_self
  have less : below.Sublist b.works := by
    rw [works]
    exact List.sublist_cons_self _ _
  have distinct := tracked.distinct
  have fresh := tracked.fresh
  rw [serials_cons works] at distinct fresh
  obtain ⟨top, -, apart⟩ := List.nodup_append.1 distinct
  refine ⟨?_, tracked.works w member, tracked.rested w member, top, ?_, ?_⟩
  · exact tracked.weaken less (List.Sublist.refl _) rfl (Nat.le_refl _) rfl
  · exact fun n inside other => apart n inside n other rfl
  · exact fun n inside => fresh n (List.mem_append_left _ inside)

theorem Tracked.push {b : Bench} (tracked : b.Tracked) {w : Work}
    (top : w.Tracked b.rules b.history) (rested : w.Rested b.rules b.history)
    (apart : b.Apart w.piece) : ({ b with works := w :: b.works } : Bench).Tracked where
  works := List.forall_mem_cons.2 ⟨top, tracked.works⟩
  rested := List.forall_mem_cons.2 ⟨rested, tracked.rested⟩
  done := tracked.done
  distinct := by
    rw [serials_cons rfl, List.nodup_append]
    refine ⟨apart.distinct, tracked.distinct, fun n inside n' other same => ?_⟩
    subst same
    exact apart.apart n inside other
  fresh := by
    rw [serials_cons rfl]
    exact List.forall_mem_append.2 ⟨apart.fresh, tracked.fresh⟩
  seen_fresh := tracked.seen_fresh
  stale_fresh := tracked.stale_fresh
  present := tracked.present
  later := tracked.later

/-- A piece is put with those that are not at work. -/
theorem Tracked.putDone {b : Bench} (tracked : b.Tracked) {p : Piece} (apart : b.Apart p)
    (entries : ∀ e ∈ p.entries b.rules false, e.Tracked b.history) {root : Option Piece}
    {lost : List Piece} (more : (root.toList ++ lost).Perm (p :: b.done)) :
    ({ b with root, lost } : Bench).Tracked := by
  have placed : ({ b with root, lost } : Bench).serials.Perm (p.serials ++ b.serials) := by
    have pieces : ((root.toList ++ lost).flatMap Piece.serials).Perm
        (p.serials ++ b.done.flatMap Piece.serials) := more.flatMap_right _
    refine (pieces.append_left (b.works.flatMap (·.piece.serials))).trans ?_
    rw [serials, ← List.append_assoc, ← List.append_assoc]
    exact List.perm_append_comm.append_right _
  constructor
  · exact tracked.works
  · exact tracked.rested
  · intro q member
    rcases List.mem_cons.1 (more.mem_iff.1 member) with rfl | old
    · exact entries
    · exact tracked.done q old
  · rw [placed.nodup_iff, List.nodup_append]
    refine ⟨apart.distinct, tracked.distinct, fun n inside n' other same => ?_⟩
    subst same
    exact apart.apart n inside other
  · intro n member
    rcases List.mem_append.1 (placed.mem_iff.1 member) with inside | other
    · exact apart.fresh n inside
    · exact tracked.fresh n other
  · exact tracked.seen_fresh
  · exact tracked.stale_fresh
  · exact tracked.present
  · exact tracked.later

/-! ### Checks -/

/-- What a check may find, so that nothing is found twice without reason. -/
structure Admits (h : History) (marks : List Mark) : Prop where
  present : ∀ m ∈ marks, m.own = true → m.fault.isMissingElement = false
  later : ∀ m ∈ marks, m.own = false → m.fault.isMissingElement = false → m.serial ∈ h.stale

/-- A check of a piece that is not on the bench leaves the bench as it was. -/
theorem Tracked.saw {b : Bench} (tracked : b.Tracked) {p : Piece} (apart : b.Apart p) {mode : Mode}
    {own : Bool} (admits : Admits b.history ((p.sightings b.rules mode own).map (·.mark)))
    (tag : String) (notes : List Note) :
    ({ b with
        registry := b.registry.record tag
        history := b.history.saw ((p.sightings b.rules mode own).map (·.mark))
        notes } : Bench).Tracked := by
  have elsewhere (n : Nat) (there : n ∈ b.serials) : b.history.SameFor
      (b.history.saw ((p.sightings b.rules mode own).map (·.mark))) n :=
    saw_elsewhere fun inside => apart.apart n inside there
  have inWorks {w : Work} (member : w ∈ b.works) {n : Nat} (inside : n ∈ w.piece.serials) :
      n ∈ b.serials :=
    List.mem_append_left _ (List.mem_flatMap.2 ⟨w, member, inside⟩)
  have numbered {m : Mark} (member : m ∈ (p.sightings b.rules mode own).map (·.mark)) :
      m.serial ∈ p.serials := by
    obtain ⟨spot, inside, serial, -⟩ := mem_marks.1 member
    rw [serial]
    exact Piece.serial_mem_serials (List.mem_map_of_mem inside)
  constructor
  · simp only [rules, Registry.rules_record]
    exact fun w member => (tracked.works w member).mono fun n inside =>
      elsewhere n (inWorks member inside)
  · simp only [rules, Registry.rules_record]
    exact fun w member => (tracked.rested w member).mono
      (elsewhere _ (inWorks member w.piece.mem_serials_self))
  · simp only [rules, Registry.rules_record]
    intro q inside e member
    refine (tracked.done q inside e member).mono (elsewhere _ ?_)
    exact List.mem_append_right _
      (List.mem_flatMap.2 ⟨q, inside, Piece.serial_mem_serials member⟩)
  · exact tracked.distinct
  · exact tracked.fresh
  · intro m member
    rcases List.mem_append.1 member with new | old
    · exact apart.fresh _ (numbered new)
    · exact tracked.seen_fresh m old
  · exact tracked.stale_fresh
  · intro m member
    rcases List.mem_append.1 member with new | old
    · exact admits.present m new
    · exact tracked.present m old
  · intro m member
    rcases List.mem_append.1 member with new | old
    · exact admits.later m new
    · exact tracked.later m old

theorem Admits.of_work {rules : Schema} {h : History} {w : Work} (tracked : w.Tracked rules h)
    {mode : Mode} (tolerant : w.own = true → mode = .tolerant) :
    Admits h ((w.piece.sightings rules mode w.own).map (·.mark)) where
  present m member own := by
    rcases mem_marks_cases tracked.unsettled member with ⟨-, owned, new⟩ | ⟨_, _, _, _, -, other, -⟩
    · rw [owned] at own
      rw [tolerant own] at new
      exact Entry.present_of_news new
    · rw [own] at other
      cases other
  later m member later present := by
    rcases mem_marks_cases tracked.unsettled member with
      ⟨serial, owned, new⟩ | ⟨c, child, e, inside, serial, -, new⟩
    · rw [serial]
      cases checked : w.piece.checked with
      | false => exact tracked.stale (owned.symm.trans later) checked
      | true =>
        rw [Entry.missing_of_news checked new] at present
        cases present
    · rw [serial]
      exact (tracked.inside c child e inside).stale_of_news new present

theorem Admits.of_entries {rules : Schema} {h : History} {p : Piece} {mode : Mode}
    (entries : ∀ e ∈ p.entries rules false, e.Tracked h) :
    Admits h ((p.sightings rules mode false).map (·.mark)) where
  present m member own := by
    obtain ⟨spot, -, -, owned, -⟩ := mem_marks.1 member
    rw [Bool.false_and, own] at owned
    cases owned
  later m member _ present := by
    obtain ⟨spot, inside, serial, -, new⟩ := mem_marks.1 member
    rw [serial]
    exact (entries _ (List.mem_map_of_mem inside)).stale_of_news new present

/-! ### Actions -/

theorem Apart.adopt {b : Bench} {w : Work} {p : Piece} (sorted : w.piece.Sorted w.type.order)
    (top : b.Apart w.piece) (apart : b.Apart p) (other : ∀ n ∈ p.serials, n ∉ w.piece.serials) :
    b.Apart (w.piece.adopt w.type.order p) := by
  have mem (n : Nat) : n ∈ (w.piece.adopt w.type.order p).serials ↔
      n ∈ w.piece.serials ∨ n ∈ p.serials := by
    rw [(Piece.serials_adopt sorted p).mem_iff, List.mem_append]
  constructor
  · rw [(Piece.serials_adopt sorted p).nodup_iff, List.nodup_append]
    refine ⟨top.distinct, apart.distinct, fun n inside n' inside' same => ?_⟩
    subst same
    exact other n inside' inside
  · exact fun n inside => ((mem n).1 inside).elim (top.apart n) (apart.apart n)
  · exact fun n inside => ((mem n).1 inside).elim (top.fresh n) (apart.fresh n)

theorem place_declared {b : Bench} {w : Work} {below : List Work} (works : b.works = w :: below)
    (declared : b.rules.declares w.piece.tag = true) (span : Span) (p : Piece) :
    ∃ notes,
      let q := w.piece.adopt w.type.order p
      let found := q.sightings b.rules .tolerant w.own
      b.place span p =
        { b with
          works :=
            { w with
              piece := q.examine .tolerant
              reported := (found.foldl (takeNote .tolerant span) (w.reported, b.notes)).1 } :: below
          registry := b.registry.record q.tag
          history := (b.history.grow w).saw (found.map (·.mark))
          notes } := by
  rw [← Piece.adopt_tag w.piece w.type.order p] at declared
  have looked := check_of_declared (b := { b with history := b.history.grow w }) declared .tolerant
    span w.own w.reported
  rw [place_on works, Bench.adopt, looked]
  exact ⟨_, rfl⟩

theorem place_undeclared {b : Bench} {w : Work} {below : List Work} (works : b.works = w :: below)
    (undeclared : b.rules.declares w.piece.tag = false) (span : Span) (p : Piece) :
    b.place span p =
      { b with
        works := { w with piece := w.piece.adopt w.type.order p } :: below
        registry := b.registry.record (w.piece.adopt w.type.order p).tag
        history := b.history.grow w } := by
  rw [← Piece.adopt_tag w.piece w.type.order p] at undeclared
  have looked := check_of_undeclared (b := { b with history := b.history.grow w }) undeclared
    .tolerant span w.own w.reported
  rw [place_on works, Bench.adopt, looked]

/-- What is at work is tracked with one more child. -/
theorem Tracked.grown {b : Bench} (tracked : b.Tracked) {p : Piece} (apart : b.Apart p)
    (entries : ∀ e ∈ p.entries b.rules false, e.Tracked b.history) {w : Work} {below : List Work}
    (works : b.works = w :: below) :
    ({ b with works := below, history := b.history.grow w } : Bench).Tracked ∧
      ({ w with piece := w.piece.adopt w.type.order p } : Work).Tracked b.rules
        (b.history.grow w) ∧
      ({ b with works := below, history := b.history.grow w } : Bench).Apart
        (w.piece.adopt w.type.order p) := by
  obtain ⟨rest, top, -, topApart⟩ := tracked.pop works
  have other {n : Nat} (inside : n ∈ p.serials) : n ∉ w.piece.serials := fun there =>
    apart.apart n inside (by rw [serials_cons works]; exact List.mem_append_left _ there)
  have restApart : ({ b with works := below } : Bench).Apart p :=
    ⟨apart.distinct, fun n inside there => apart.apart n inside
      (by rw [serials_cons works]; exact List.mem_append_right _ there), apart.fresh⟩
  have whole := topApart.adopt top.sorted restApart fun n => other
  refine ⟨rest.noted (fun n there => ?_) (History.seen_grow ..) (History.subset_stale_grow ..) ?_,
    top.adopt topApart.distinct entries fun inside => other inside w.piece.mem_serials_self,
    ⟨whole.distinct, whole.apart, whole.fresh⟩⟩
  · exact History.sameFor_grow fun same =>
      topApart.apart _ w.piece.mem_serials_self (same ▸ there)
  · exact History.forall_stale_grow tracked.stale_fresh
      (topApart.fresh _ w.piece.mem_serials_self)

/-- A finished piece goes where it belongs. -/
theorem Tracked.place {b : Bench} (tracked : b.Tracked) {p : Piece} (apart : b.Apart p)
    (entries : ∀ e ∈ p.entries b.rules false, e.Tracked b.history) (span : Span) :
    (b.place span p).Tracked := by
  cases works : b.works with
  | nil =>
    rw [place_nil works]
    exact tracked.putDone apart entries (.refl _)
  | cons w below =>
    obtain ⟨rest, grown, whole⟩ := tracked.grown apart entries works
    cases declared : b.rules.declares w.piece.tag with
    | false =>
      rw [place_undeclared works declared]
      have undeclared : b.rules.declares (w.piece.adopt w.type.order p).tag = false := by
        rwa [Piece.adopt_tag]
      exact (rest.push grown (Work.rested_of_undeclared grown undeclared) whole).recorded _
    | true =>
      obtain ⟨notes, placed⟩ := place_declared works declared span p
      rw [placed]
      have admits : Admits (b.history.grow w)
          (((w.piece.adopt w.type.order p).sightings b.rules .tolerant w.own).map (·.mark)) :=
        Admits.of_work grown fun _ => rfl
      have parent : (w.piece.adopt w.type.order p).children.isEmpty = false :=
        Piece.isEmpty_children_adopt (tracked.pop works).2.1.sorted p
      have looked := grown.examine whole.distinct parent (by rwa [Piece.adopt_tag]) span b.notes
      have after := rest.saw whole admits (w.piece.adopt w.type.order p).tag notes
      refine after.push ?_ ?_ ⟨?_, ?_, ?_⟩
      · simp only [rules, Registry.rules_record]
        exact looked
      · exact Work.rested_examine { w with piece := w.piece.adopt w.type.order p }
          grown.unsettled _
      · rw [Piece.serials_examine]
        exact whole.distinct
      · rw [Piece.serials_examine]
        exact whole.apart
      · rw [Piece.serials_examine]
        exact whole.fresh

/-! ### Construction -/

/-- A change to a piece that leaves its place and what is inside it, and all faults that cannot
pass. -/
structure Shapes (rules : Schema) (p q : Piece) : Prop where
  serial : q.serial = p.serial
  tag : q.tag = p.tag
  children : q.children = p.children
  settled : q.settled = p.settled
  unchecked : q.checked = false
  passing : ∀ f ∈ p.faults rules, f ∈ q.faults rules ∨ f.Passing

theorem Shaped.shapes {p q : Piece} (shaped : Shaped p q) (rules : Schema) : Shapes rules p q := by
  cases shaped with
  | setText text =>
    refine ⟨rfl, rfl, rfl, rfl, rfl, fun f fault => ?_⟩
    rw [Piece.faults, Piece.element_setText]
    exact rules.ownFaults_setText p.element text fault
  | setAttribute name value =>
    refine ⟨rfl, rfl, rfl, rfl, rfl, fun f fault => ?_⟩
    rw [Piece.faults, Piece.element_setAttribute]
    exact rules.ownFaults_setAttribute p.element name value fault

theorem Shapes.serials {rules : Schema} {p q : Piece} (shapes : Shapes rules p q) :
    q.serials = p.serials := by
  rw [Piece.serials_eq, Piece.serials_eq p, shapes.serial, shapes.children]

/-- The piece under construction is tracked after a change. What its construction found can only
go away when it has a child, since nothing was looked for before. -/
theorem Shapes.tracked {rules : Schema} {h : History} {w : Work} {q : Piece}
    (shapes : Shapes rules w.piece q) (tracked : w.Tracked rules h) (own : w.own = true) :
    ({ w with piece := q } : Work).Tracked rules (h.reshape w.piece) := by
  have noted {f : Fault} (seen : ⟨w.piece.serial, true, f⟩ ∈ h.seen) :
      w.piece.serial ∈ (h.reshape w.piece).reshaped :=
    History.mem_reshaped_reshape (tracked.parent f seen)
  constructor <;> simp only [shapes.serial, shapes.tag, shapes.children, shapes.settled,
    shapes.unchecked, History.seen_reshape, History.stale_reshape]
  · exact tracked.unsettled
  · unfold Piece.Sorted
    rw [shapes.children]
    exact tracked.sorted
  · intro unchecked
    cases unchecked
  · exact tracked.held_back
  · exact tracked.not_later
  · exact tracked.unseen
  · exact tracked.reported
  · exact fun f seen => absurd seen (tracked.not_later own f)
  · intro f seen
    rcases tracked.passes f seen with fault | ⟨passing, reshaped⟩
    · exact (shapes.passing f fault).imp_right fun passing => ⟨passing, noted seen⟩
    · exact .inr ⟨passing, (History.sameFor_reshape h w.piece _).reshaped reshaped⟩
  · exact tracked.parent
  · exact tracked.fresh
  · intro scope
    have scope' : w.own = false := scope
    rw [own] at scope'
    cases scope'
  · intro checked
    cases checked
  · exact fun c child e member =>
      (tracked.inside c child e member).mono (History.sameFor_reshape h w.piece _)

theorem Shapes.rested {rules : Schema} {h : History} {w : Work} {q : Piece}
    (shapes : Shapes rules w.piece q) (tracked : w.Tracked rules h) (rested : w.Rested rules h)
    (own : w.own = true) : ({ w with piece := q } : Work).Rested rules (h.reshape w.piece) := by
  constructor <;> simp only [shapes.serial, shapes.tag, shapes.children, History.seen_reshape]
  · exact rested.looked
  · exact fun _ => tracked.not_later own

theorem Apart.congr {b : Bench} {p q : Piece} (apart : b.Apart p) (same : q.serials = p.serials) :
    b.Apart q := by
  refine ⟨?_, ?_, ?_⟩ <;> rw [same]
  · exact apart.distinct
  · exact apart.apart
  · exact apart.fresh

theorem Tracked.reshaped {b : Bench} (tracked : b.Tracked) {w : Work} {below : List Work}
    (works : b.works = w :: below) (own : w.own = true) {p : Piece} (shaped : Shaped w.piece p) :
    (b.reshaped w below p).Tracked := by
  have shapes := shaped.shapes b.rules
  obtain ⟨rest, top, rested, apart⟩ := tracked.pop works
  have noted :
      ({ b with works := below, history := b.history.reshape w.piece } : Bench).Tracked := by
    refine rest.noted (fun n _ => History.sameFor_reshape ..) (History.seen_reshape ..) ?_ ?_ <;>
      rw [History.stale_reshape]
    · exact List.Subset.refl _
    · exact tracked.stale_fresh
  exact noted.push (shapes.tracked top own) (shapes.rested top rested own)
    (Apart.congr ⟨apart.distinct, apart.apart, apart.fresh⟩ shapes.serials)

/-- A new element has a number that was not given out yet. -/
theorem Tracked.begun {b : Bench} (tracked : b.Tracked) (id : TypeId) (type : ElementType)
    (span : Span) : (b.begun id type span).Tracked := by
  have unseen {own : Bool} {f : Fault} : ⟨b.nextSerial, own, f⟩ ∉ b.history.seen :=
    fun seen => Nat.lt_irrefl _ (tracked.seen_fresh _ seen)
  have only : (Piece.empty b.nextSerial type.tag).serials = [b.nextSerial] := by
    rw [Piece.serials_eq]
    rfl
  have given : ({ b with nextSerial := b.nextSerial + 1 } : Bench).Tracked :=
    tracked.weaken (List.Sublist.refl _) (List.Sublist.refl _) rfl (Nat.le_succ _) rfl
  refine given.push (w := ⟨id, type, .empty b.nextSerial type.tag, [], none, span⟩) ?_ ?_ ?_
  · constructor
    · rfl
    · exact List.Pairwise.nil
    · intro checked
      cases checked
    · exact fun f own _ => unseen
    · exact fun _ f => unseen
    · exact fun _ f own => unseen
    · exact fun f seen => absurd seen unseen
    · exact fun f seen => absurd seen unseen
    · exact fun f seen => absurd seen unseen
    · exact fun f seen => absurd seen unseen
    · exact fun _ stale => Nat.lt_irrefl _ (tracked.stale_fresh _ stale)
    · intro scope
      cases scope
    · intro checked
      cases checked
    · exact fun c child => nomatch child
  · exact ⟨fun _ c child => (nomatch child), fun _ f => unseen⟩
  · refine ⟨?_, ?_, ?_⟩ <;> rw [only]
    · exact List.nodup_singleton _
    · intro n member there
      rw [List.mem_singleton.1 member] at there
      exact Nat.lt_irrefl _ (tracked.fresh _ there)
    · intro n member
      rw [List.mem_singleton.1 member]
      exact Nat.lt_succ_self _

/-- What is under construction is taken from the bench when its construction is over. -/
theorem Tracked.released {b : Bench} (tracked : b.Tracked) {w : Work} {below : List Work}
    (works : b.works = w :: below) :
    (b.released w below).Tracked ∧ (b.released w below).Apart w.piece := by
  obtain ⟨rest, -, -, apart⟩ := tracked.pop works
  refine ⟨rest.noted (fun n there => ?_) (History.seen_release ..)
    (History.subset_stale_release ..) ?_, ⟨apart.distinct, apart.apart, apart.fresh⟩⟩
  · exact History.sameFor_release fun same =>
      apart.apart _ w.piece.mem_serials_self (same ▸ there)
  · exact History.forall_stale_release tracked.stale_fresh
      (apart.fresh _ w.piece.mem_serials_self)

theorem Tracked.opened {b : Bench} (tracked : b.Tracked) {w : Work} {below : List Work}
    (works : b.works = w :: below) (own : w.own = true) : (b.opened w below).Tracked := by
  obtain ⟨-, top, rested, -⟩ := tracked.pop works
  obtain ⟨rest, apart⟩ := tracked.released works
  have given : ({ b.released w below with nextScope := b.nextScope + 1 } : Bench).Tracked :=
    rest.weaken (List.Sublist.refl _) (List.Sublist.refl _) rfl (Nat.le_refl _) rfl
  refine given.push (top.opened apart.distinct own b.nextScope) ⟨rested.looked, fun _ => ?_⟩
    ⟨apart.distinct, apart.apart, apart.fresh⟩
  simp only [Bench.released, History.seen_release]
  exact top.not_later own

theorem Tracked.attached {b : Bench} (tracked : b.Tracked) {w : Work} {below : List Work}
    (works : b.works = w :: below) (own : w.own = true) (span : Span) :
    ((b.released w below).place span w.piece).Tracked := by
  obtain ⟨-, top, -, -⟩ := tracked.pop works
  obtain ⟨rest, apart⟩ := tracked.released works
  exact rest.place apart (top.entries_of_own apart.distinct own) span

/-- What is given up is kept apart. -/
theorem Tracked.discarded {b : Bench} (tracked : b.Tracked) {works : List Work}
    (same : b.works = works) : (b.discard works).Tracked := by
  induction works generalizing b with
  | nil => exact tracked
  | cons w below ih =>
    rw [Bench.discard]
    split
    · rename_i own
      obtain ⟨-, top, -, -⟩ := tracked.pop same
      obtain ⟨rest, apart⟩ := tracked.released same
      refine ih (b := { b.released w below with lost := w.piece :: b.lost }) ?_ rfl
      exact rest.putDone apart (top.entries_of_own apart.distinct own) List.perm_middle
    · exact tracked

/-! ### Closing -/

theorem Admits.of_scope {rules : Schema} {h : History} {w : Work} (tracked : w.Tracked rules h)
    (scope : w.own = false) (mode : Mode) :
    Admits h ((w.piece.sightings rules mode false).map (·.mark)) := by
  rw [← scope]
  refine Admits.of_work tracked fun own => ?_
  rw [scope] at own
  cases own

/-- The strict check of a scope leaves a piece that is done. -/
theorem Tracked.closing {b : Bench} (tracked : b.Tracked) {w : Work} {below : List Work}
    (works : b.works = w :: below) (scope : w.own = false) :
    let done := ({ b with works := below } : Bench).check .strict w.span false w.piece w.reported
    done.2.Tracked ∧ done.2.Apart done.1.1 ∧
      ∀ e ∈ done.1.1.entries done.2.rules false, e.Tracked done.2.history := by
  obtain ⟨rest, top, -, apart⟩ := tracked.pop works
  cases declared : b.rules.declares w.piece.tag with
  | false =>
    simp only [check_of_undeclared (b := { b with works := below }) declared]
    refine ⟨rest.recorded w.piece.tag, ⟨apart.distinct, apart.apart, apart.fresh⟩, ?_⟩
    simp only [rules, Registry.rules_record]
    exact top.entries_of_undeclared scope declared
  | true =>
    simp only [check_of_declared (b := { b with works := below }) declared]
    refine ⟨rest.saw apart (Admits.of_scope top scope .strict) w.piece.tag _,
      Apart.congr ⟨apart.distinct, apart.apart, apart.fresh⟩ (w.piece.serials_examine .strict), ?_⟩
    simp only [rules, Registry.rules_record]
    exact top.entries_of_closed apart.distinct

theorem Tracked.closed {b : Bench} (tracked : b.Tracked) {w : Work} {below : List Work}
    (works : b.works = w :: below) (scope : w.own = false) : (b.closed w below).Tracked := by
  obtain ⟨after, apart, entries⟩ := tracked.closing works scope
  exact after.place apart entries w.span

/-- A root is taken from the bench. -/
theorem Tracked.takeRoot {b : Bench} (tracked : b.Tracked) {p : Piece} (root : b.root = some p) :
    ({ b with root := none } : Bench).Tracked ∧ ({ b with root := none } : Bench).Apart p := by
  have done : b.done = p :: ({ b with root := none } : Bench).done := by
    rw [Bench.done, root]
    rfl
  have placed : b.serials.Perm (p.serials ++ ({ b with root := none } : Bench).serials) := by
    rw [serials, done, List.flatMap_cons, serials, ← List.append_assoc, ← List.append_assoc]
    exact List.perm_append_comm.append_right _
  have distinct := tracked.distinct
  rw [placed.nodup_iff, List.nodup_append] at distinct
  refine ⟨tracked.weaken (List.Sublist.refl _) ?_ rfl (Nat.le_refl _) rfl, distinct.1,
    fun n inside other => distinct.2.2 n inside n other rfl, fun n inside => ?_⟩
  · rw [done]
    exact List.sublist_cons_self _ _
  · exact tracked.fresh n (placed.mem_iff.2 (List.mem_append_left _ inside))

/-- The root that is settled is checked like any other piece. -/
theorem Tracked.settledRoot {b : Bench} (tracked : b.Tracked) {p : Piece}
    (root : b.root = some p) : (b.settledRoot p).Tracked := by
  obtain ⟨rest, apart⟩ := tracked.takeRoot root
  have entries := tracked.done p (by rw [Bench.done, root]; exact List.mem_cons_self)
  unfold Bench.settledRoot
  cases declared : b.rules.declares p.tag with
  | false =>
    rw [check_of_undeclared declared]
    refine (rest.recorded p.tag).putDone (p := p)
      ⟨apart.distinct, apart.apart, apart.fresh⟩ ?_ (.refl _)
    simp only [rules, Registry.rules_record]
    exact entries
  | true =>
    rw [check_of_declared declared]
    refine (rest.saw apart (Admits.of_entries entries) p.tag _).putDone (p := p.examine .strict)
      (Apart.congr ⟨apart.distinct, apart.apart, apart.fresh⟩ (p.serials_examine .strict)) ?_
      (.refl _)
    simp only [rules, Registry.rules_record]
    intro e member
    rw [Piece.entries_examine] at member
    obtain ⟨e, old, rfl⟩ := List.mem_map.1 member
    exact (entries e old).examine (saw_adds_later apart.distinct old)

/-- Whatever is done on the bench, its flags go on saying what was found. -/
theorem Tracked.change {c : Catalogue} {b b' : Bench} (tracked : b.Tracked)
    (change : Change c b b') : b'.Tracked := by
  cases change with
  | nothing => exact tracked
  | begun id type span known => exact tracked.begun id type span
  | reshaped w below p works own shaped => exact tracked.reshaped works own shaped
  | attached w below span works own => exact tracked.attached works own span
  | opened w below works own => exact tracked.opened works own
  | discarded => exact tracked.discarded rfl
  | closed w below works scope => exact tracked.closed works scope
  | settled p works root unsettled => exact tracked.settledRoot root

theorem performAll_tracked {b : Bench} (tracked : b.Tracked) (c : Catalogue)
    (actions : List Action) : (b.performAll c actions).Tracked := by
  induction actions generalizing b with
  | nil => exact tracked
  | cons action rest ih => exact ih (tracked.change (perform_change c b action))

end ScoreScript.Bench
