import ScoreScript.Proofs.Building.Step

/-!
What is logged. During its construction an element is reported at most once for each fault, and
at most once afterwards. Main statements: `performAll_logged`, and `Logged.twice` for the elements
that are reported twice.
-/

namespace ScoreScript

/-- What taking sightings adds to the notes. -/
structure Taken (found : List Sighting) (reported : List String) (new : List Note) : Prop where
  distinct : (new.map (·.violation.text)).Nodup
  sound : ∀ n ∈ new, n.toSighting ∈ found ∧ n.violation.text ∉ reported
  complete : ∀ x ∈ found,
    x.violation.text ∈ reported ∨ ∃ n ∈ new, n.violation.text = x.violation.text

theorem exists_taken (mode : Mode) (span : Span) (found : List Sighting) (reported : List String)
    (notes : List Note) :
    ∃ new, Taken found reported new ∧
      (found.foldl (takeNote mode span) (reported, notes)).2 = new ++ notes := by
  induction found generalizing reported notes with
  | nil => exact ⟨[], ⟨List.nodup_nil, fun n => (nomatch ·), fun x => (nomatch ·)⟩, rfl⟩
  | cons x rest ih =>
    rw [List.foldl_cons]
    by_cases old : x.violation.text ∈ reported
    · have same : takeNote mode span (reported, notes) x = (reported, notes) :=
        if_pos (List.contains_iff_mem.2 old)
      rw [same]
      obtain ⟨new, taken, added⟩ := ih reported notes
      refine ⟨new, ⟨taken.distinct, fun n member => ?_, ?_⟩, added⟩
      · exact ⟨List.mem_cons_of_mem _ (taken.sound n member).1, (taken.sound n member).2⟩
      · exact List.forall_mem_cons.2 ⟨.inl old, taken.complete⟩
    · have first : takeNote mode span (reported, notes) x =
          (x.violation.text :: reported, ⟨x, mode, span⟩ :: notes) :=
        if_neg fun listed => old (List.contains_iff_mem.1 listed)
      rw [first]
      obtain ⟨new, taken, added⟩ := ih (x.violation.text :: reported) (⟨x, mode, span⟩ :: notes)
      refine ⟨new ++ [⟨x, mode, span⟩], ⟨?_, ?_, ?_⟩, ?_⟩
      · rw [List.map_append, List.map_singleton, List.nodup_append]
        refine ⟨taken.distinct, List.nodup_singleton _, ?_⟩
        intro text member other single same
        obtain ⟨n, inNew, rfl⟩ := List.mem_map.1 member
        exact (taken.sound n inNew).2
          (List.mem_cons.2 (.inl (same.trans (List.mem_singleton.1 single))))
      · refine List.forall_mem_append.2 ⟨fun n member => ?_, ?_⟩
        · obtain ⟨inRest, unlisted⟩ := taken.sound n member
          rw [List.mem_cons, not_or] at unlisted
          exact ⟨List.mem_cons_of_mem _ inRest, unlisted.2⟩
        · intro n member
          rw [List.mem_singleton.1 member]
          exact ⟨List.mem_cons_self, old⟩
      · refine List.forall_mem_cons.2 ⟨.inr ⟨⟨x, mode, span⟩, by simp, rfl⟩, fun y member => ?_⟩
        rcases taken.complete y member with listed | ⟨n, inNew, same⟩
        · rcases List.mem_cons.1 listed with same | listed
          · exact .inr ⟨⟨x, mode, span⟩, by simp, same.symm⟩
          · exact .inl listed
        · exact .inr ⟨n, List.mem_append_left _ inNew, same⟩
      · rw [added, List.append_assoc]
        rfl

/-- What is found again was reported, unless the construction found it. -/
theorem Entry.Tracked.unseen_of_news {mode : Mode} {h : History} {e : Entry} {f : Fault}
    (tracked : e.Tracked h) (new : f ∈ e.news mode) : ⟨e.serial, false, f⟩ ∉ h.seen := by
  have unsettled := (Entry.mem_news.1 new).1
  cases checked : e.checked with
  | false => exact tracked.untouched unsettled checked f
  | true => exact tracked.held_back unsettled f false (Entry.missing_of_news checked new)

/-- What a check found that was found before: it was reported, or its construction found it and
is over. -/
def Repeats (h : History) (reported : List String) (found : List Sighting) : Prop :=
  ∀ x ∈ found, ∀ own, ⟨x.mark.serial, own, x.mark.fault⟩ ∈ h.seen →
    x.violation.text ∈ reported ∨ x.mark.own = false ∧ own = true

theorem Work.Tracked.repeats {rules : Schema} {h : History} {w : Work}
    (tracked : w.Tracked rules h) (mode : Mode) :
    Repeats h w.reported (w.piece.sightings rules mode w.own) := by
  intro x found own again
  rcases mem_sightings_cases tracked.unsettled found with
    ⟨f, new, rfl⟩ | ⟨i, c, at_i, inner, inside, f, new, rfl⟩
  · cases same : w.own with
    | true =>
      cases own with
      | true =>
        rw [← same] at again
        exact .inl (tracked.reported f again)
      | false => exact absurd again (tracked.not_later same f)
    | false =>
      cases own with
      | true => exact .inr ⟨rfl, rfl⟩
      | false =>
        rw [← same] at again
        exact .inl (tracked.reported f again)
  · cases own with
    | true => exact .inr ⟨rfl, rfl⟩
    | false =>
      have entry := tracked.inside c (List.mem_of_getElem? at_i) inner.entry
        (List.mem_map_of_mem inside)
      exact absurd again (entry.unseen_of_news new)

theorem repeats_of_entries {rules : Schema} {h : History} {p : Piece}
    (entries : ∀ e ∈ p.entries rules false, e.Tracked h) (mode : Mode) (reported : List String) :
    Repeats h reported (p.sightings rules mode false) := by
  intro x found own again
  obtain ⟨spot, inside, here⟩ := List.mem_flatMap.1 found
  obtain ⟨f, new, rfl⟩ := List.mem_map.1 here
  cases own with
  | true => exact .inr ⟨rfl, rfl⟩
  | false =>
    exact absurd again ((entries spot.entry (List.mem_map_of_mem inside)).unseen_of_news new)

/-- The later of two marks that may both be logged, and the earlier. -/
def Mark.Follows (later earlier : Mark) : Prop :=
  later.serial = earlier.serial → later.fault = earlier.fault →
    later.own = false ∧ earlier.own = true

namespace Bench

/-- What is logged was found, and no element is reported twice for a fault, except once by its
construction and once afterwards. -/
structure Logged (b : Bench) : Prop where
  seen : ∀ m ∈ b.kept, m ∈ b.history.seen
  once : b.kept.Pairwise Mark.Follows

theorem start_logged (registry : Registry) : (start registry).Logged :=
  ⟨fun _ member => (nomatch member), List.Pairwise.nil⟩

theorem Logged.congr {b b' : Bench} (logged : b.Logged) (notes : b'.notes = b.notes)
    (seen : b'.history.seen = b.history.seen) : b'.Logged := by
  constructor
  · rw [kept, notes, seen]
    exact logged.seen
  · rw [kept, notes]
    exact logged.once

/-- One check finds a fault of an element in one place. -/
theorem sighting_eq_of_serial_eq {s : Schema} {mode : Mode} {own : Bool} {p : Piece}
    (distinct : p.serials.Nodup) {x y : Sighting} (hx : x ∈ p.sightings s mode own)
    (hy : y ∈ p.sightings s mode own) (serial : x.mark.serial = y.mark.serial)
    (fault : x.mark.fault = y.mark.fault) : x = y := by
  obtain ⟨spot, inside, here⟩ := List.mem_flatMap.1 hx
  obtain ⟨spot', inside', here'⟩ := List.mem_flatMap.1 hy
  obtain ⟨f, -, rfl⟩ := List.mem_map.1 here
  obtain ⟨f', -, rfl⟩ := List.mem_map.1 here'
  have same := Piece.spot_eq_of_serial_eq distinct inside inside' serial
  subst same
  have fault' : f = f' := fault
  rw [fault']

/-- A check reports nothing again, if what it finds again was reported. -/
theorem Logged.check {b : Bench} (logged : b.Logged) {p : Piece} (distinct : p.serials.Nodup)
    {mode : Mode} {own : Bool} {reported : List String}
    (repeats : Repeats b.history reported (p.sightings b.rules mode own)) (span : Span) :
    (b.check mode span own p reported).2.Logged := by
  cases declared : b.rules.declares p.tag with
  | false =>
    rw [check_of_undeclared declared]
    exact logged.congr rfl rfl
  | true =>
    rw [check_of_declared declared]
    obtain ⟨new, taken, added⟩ :=
      exists_taken mode span (p.sightings b.rules mode own) reported b.notes
    simp only [added]
    constructor
    · intro m member
      rw [kept, List.map_append, List.mem_append] at member
      rcases member with fresh | old
      · obtain ⟨n, inNew, rfl⟩ := List.mem_map.1 fresh
        exact List.mem_append_left _ (List.mem_map_of_mem (taken.sound n inNew).1)
      · exact List.mem_append_right _ (logged.seen m old)
    · rw [kept, List.map_append, List.pairwise_append]
      refine ⟨?_, logged.once, fun m fresh m' old serial fault => ?_⟩
      · -- notes of one check have different texts, so they are about different faults
        have texts := List.pairwise_map.1 taken.distinct
        rw [List.pairwise_map]
        refine texts.imp_of_mem fun {n n'} hn hn' other serial fault => absurd ?_ other
        have same := sighting_eq_of_serial_eq distinct (taken.sound n hn).1 (taken.sound n' hn').1
          serial fault
        exact congrArg (fun x : Sighting => x.violation.text) same
      · obtain ⟨n, inNew, rfl⟩ := List.mem_map.1 fresh
        obtain ⟨inFound, unlisted⟩ := taken.sound n inNew
        have again : ⟨n.mark.serial, m'.own, n.mark.fault⟩ ∈ b.history.seen := by
          rw [serial, fault]
          exact logged.seen m' old
        exact (repeats _ inFound m'.own again).resolve_left unlisted

theorem Logged.place {b : Bench} (logged : b.Logged) (tracked : b.Tracked) {p : Piece}
    (apart : b.Apart p) (entries : ∀ e ∈ p.entries b.rules false, e.Tracked b.history)
    (span : Span) : (b.place span p).Logged := by
  cases works : b.works with
  | nil =>
    rw [place_nil works]
    exact logged.congr rfl rfl
  | cons w below =>
    rw [place_on works]
    obtain ⟨-, grown, whole⟩ := tracked.grown apart entries works
    have noted : ({ b with history := b.history.grow w } : Bench).Logged :=
      logged.congr rfl (History.seen_grow ..)
    have checked : (b.adopt span w p).2.Logged :=
      noted.check whole.distinct (grown.repeats .tolerant) span
    exact checked.congr rfl rfl

theorem Logged.closed {b : Bench} (logged : b.Logged) (tracked : b.Tracked) {w : Work}
    {below : List Work} (works : b.works = w :: below) (scope : w.own = false) :
    (b.closed w below).Logged := by
  obtain ⟨-, top, -, topApart⟩ := tracked.pop works
  obtain ⟨after, apart, entries⟩ := tracked.closing works scope
  have popped : ({ b with works := below } : Bench).Logged := logged.congr rfl rfl
  have repeats := top.repeats .strict
  rw [scope] at repeats
  exact (popped.check topApart.distinct repeats w.span).place after apart entries w.span

theorem Logged.settledRoot {b : Bench} (logged : b.Logged) (tracked : b.Tracked) {p : Piece}
    (root : b.root = some p) : (b.settledRoot p).Logged := by
  obtain ⟨-, apart⟩ := tracked.takeRoot root
  have entries := tracked.done p (by rw [done, root]; exact List.mem_cons_self)
  have repeats := repeats_of_entries entries .strict []
  exact (logged.check apart.distinct repeats .nowhere).congr rfl rfl

theorem Logged.change {c : Catalogue} {b b' : Bench} (logged : b.Logged) (tracked : b.Tracked)
    (change : Change c b b') : b'.Logged := by
  cases change with
  | nothing => exact logged
  | begun id type span known => exact logged.congr rfl rfl
  | reshaped w below p works own shaped => exact logged.congr rfl (History.seen_reshape ..)
  | attached w below span works own =>
    obtain ⟨-, top, -, -⟩ := tracked.pop works
    obtain ⟨rest, apart⟩ := tracked.released works
    have popped : (b.released w below).Logged := logged.congr rfl (History.seen_release ..)
    exact popped.place rest apart (top.entries_of_own apart.distinct own) span
  | opened w below works own => exact logged.congr rfl (History.seen_release ..)
  | discarded =>
    obtain ⟨lost, history, seen, given⟩ := b.discard_eq rfl
    rw [given]
    exact logged.congr rfl seen
  | closed w below works scope => exact logged.closed tracked works scope
  | settled p works root unsettled => exact logged.settledRoot tracked root

theorem performAll_logged {b : Bench} (tracked : b.Tracked) (logged : b.Logged) (c : Catalogue)
    (actions : List Action) : (b.performAll c actions).Logged := by
  induction actions generalizing b with
  | nil => exact logged
  | cons action rest ih =>
    have change := perform_change c b action
    exact ih (tracked.change change) (logged.change tracked change)

/-- An element that is reported twice for a fault was reported by its construction and then once
more. The fault is no missing child, and what the construction did last was not checked, or else
the element got a child as a scope. -/
theorem Logged.twice {b : Bench} (logged : b.Logged) (tracked : b.Tracked) :
    b.kept.Pairwise fun later earlier =>
      later.serial = earlier.serial → later.fault = earlier.fault →
        later.own = false ∧ earlier.own = true ∧ later.fault.isMissingElement = false ∧
          later.serial ∈ b.history.stale := by
  refine logged.once.imp_of_mem fun {later earlier} atLater atEarlier follows serial fault => ?_
  obtain ⟨after, before⟩ := follows serial fault
  have present := tracked.present earlier (logged.seen earlier atEarlier) before
  rw [← fault] at present
  exact ⟨after, before, present, tracked.later later (logged.seen later atLater) after present⟩

end Bench

end ScoreScript
