import ScoreScript.Proofs.Building.Call
import ScoreScript.Proofs.Building.Logging
import ScoreScript.Proofs.Building.Lossless
import ScoreScript.Proofs.Building.Step

/-!
What is left on the bench when a document is finished. No element goes missing: whatever was begun
is on the bench, at work, in the document, or among what was lost (`performAll_complete`). The notes
are the diagnostics of the document, and since the root is settled they are all that there is to
find. Main statements: `note_of_violation`, `note_of_valid` and `reportedTwice_iff`.
-/

namespace ScoreScript

namespace Bench

/-! ### Nothing goes missing -/

/-- Every element that was begun is somewhere on the bench. -/
def Complete (b : Bench) : Prop :=
  ∀ n < b.nextSerial, n ∈ b.serials

/-- What is known about the elements on the bench. -/
def entries (b : Bench) : List Entry :=
  (b.works.map (·.piece) ++ b.done).flatMap (Piece.entries b.rules false)

theorem serials_entries (b : Bench) : b.entries.map (·.serial) = b.serials := by
  rw [entries, List.map_flatMap, List.flatMap_append, serials, List.flatMap_map]
  congr 1 <;> exact List.flatMap_congr fun _ _ => Piece.map_serial_entries ..

theorem start_complete (registry : Registry) : (start registry).Complete :=
  fun _ small => absurd small (Nat.not_lt_zero _)

theorem Complete.of_subset {b b' : Bench} (complete : b.Complete)
    (given : b'.nextSerial = b.nextSerial) (more : b.serials ⊆ b'.serials) : b'.Complete := by
  intro n small
  rw [given] at small
  exact more (complete n small)

section Checks

variable (mode : Mode) (span : Span) (own : Bool) (p : Piece) (reported : List String) (b : Bench)

@[simp] theorem serials_checked :
    (b.check mode span own p reported).1.1.serials = p.serials := by
  cases declared : b.rules.declares p.tag
  · rw [check_of_undeclared declared]
  · rw [check_of_declared declared, Piece.serials_examine]

@[simp] theorem check_serials : (b.check mode span own p reported).2.serials = b.serials := by
  simp only [serials, done, check_works, check_root, check_lost]

end Checks

/-! ### Pieces that go somewhere -/

@[simp] theorem place_nextSerial (b : Bench) (span : Span) (p : Piece) :
    (b.place span p).nextSerial = b.nextSerial := by
  cases works : b.works with
  | nil => rw [place_nil works]
  | cons w below =>
    rw [place_on works]
    exact check_nextSerial ..

theorem serials_done (b : Bench) (works : List Work) :
    ({ b with works } : Bench).serials =
      works.flatMap (·.piece.serials) ++ b.done.flatMap Piece.serials :=
  rfl

/-- What is placed comes to the others. -/
theorem mem_serials_place {b : Bench} (sorted : ∀ w ∈ b.works, w.piece.Sorted w.type.order)
    (span : Span) {p : Piece} {n : Nat} (there : n ∈ p.serials ∨ n ∈ b.serials) :
    n ∈ (b.place span p).serials := by
  cases works : b.works with
  | nil =>
    rw [place_nil works]
    rw [serials, works, List.flatMap_nil, List.nil_append] at there
    change n ∈ b.works.flatMap (·.piece.serials) ++ (p :: b.done).flatMap Piece.serials
    rw [works, List.flatMap_nil, List.nil_append, List.flatMap_cons, List.mem_append]
    exact there
  | cons w below =>
    have top := sorted w (by rw [works]; exact List.mem_cons_self)
    rw [serials_cons works, List.mem_append] at there
    have same : (b.adopt span w p).2.done = b.done := by
      simp only [done, adopt, check_root, check_lost]
    rw [place_on works, serials_done, same, List.flatMap_cons, List.append_assoc, List.mem_append,
      adopt, serials_checked, (Piece.serials_adopt top p).mem_iff, List.mem_append]
    rcases there with new | old | rest
    · exact .inl (.inr new)
    · exact .inl (.inl old)
    · exact .inr rest

theorem Tracked.sorted {b : Bench} (tracked : b.Tracked) :
    ∀ w ∈ b.works, w.piece.Sorted w.type.order :=
  fun w member => (tracked.works w member).sorted

theorem serials_discard {b : Bench} {works : List Work} (same : b.works = works) :
    b.serials ⊆ (b.discard works).serials ∧ (b.discard works).nextSerial = b.nextSerial := by
  induction works generalizing b with
  | nil => exact ⟨List.Subset.refl _, rfl⟩
  | cons w below ih =>
    rw [discard]
    split
    · obtain ⟨more, given⟩ := ih (b := { b.released w below with lost := w.piece :: b.lost }) rfl
      refine ⟨fun n there => more ?_, given⟩
      rw [serials_cons same] at there
      simp only [serials, done, released, List.flatMap_append, List.flatMap_cons,
        List.mem_append] at there ⊢
      tauto
    · exact ⟨List.Subset.refl _, rfl⟩

theorem Complete.change {c : Catalogue} {b b' : Bench} (complete : b.Complete)
    (tracked : b.Tracked) (change : Change c b b') : b'.Complete := by
  cases change with
  | nothing => exact complete
  | begun id type span known =>
    intro n small
    rw [serials_cons rfl, Piece.serials_eq, List.mem_append, List.mem_cons]
    rcases Nat.lt_succ_iff_lt_or_eq.1 small with old | new
    · exact .inr (complete n old)
    · exact .inl (.inl new)
  | reshaped w below p works own shaped =>
    have works' : (b.reshaped w below p).works = { w with piece := p } :: below := rfl
    refine complete.of_subset rfl ?_
    rw [serials_cons works, serials_cons works', (shaped.shapes b.rules).serials]
    exact List.Subset.refl _
  | attached w below span works own =>
    refine complete.of_subset (place_nextSerial ..) fun n there => ?_
    rw [serials_cons works, List.mem_append] at there
    exact mem_serials_place (tracked.released works).1.sorted span there
  | opened w below works own =>
    have works' : (b.opened w below).works =
        { w with scope := some b.nextScope, reported := [] } :: below := rfl
    refine complete.of_subset rfl ?_
    rw [serials_cons works, serials_cons works']
    exact List.Subset.refl _
  | discarded => exact complete.of_subset (serials_discard rfl).2 (serials_discard rfl).1
  | closed w below works scope =>
    refine complete.of_subset ((place_nextSerial ..).trans (check_nextSerial ..)) fun n there => ?_
    rw [serials_cons works, List.mem_append] at there
    have sorted := (tracked.closing works scope).1.sorted
    rw [← serials_checked .strict w.span false w.piece w.reported { b with works := below },
      ← check_serials .strict w.span false w.piece w.reported { b with works := below }] at there
    exact mem_serials_place sorted w.span there
  | settled p works root unsettled =>
    refine complete.of_subset (check_nextSerial ..) fun n there => ?_
    rw [serials, works, done, root] at there
    have settled := serials_checked .strict .nowhere false p [] b
    simp only [settledRoot, serials, done, check_works, check_lost, works, Option.toList_some,
      List.singleton_append, List.flatMap_cons, settled] at there ⊢
    exact there

theorem performAll_complete {b : Bench} (tracked : b.Tracked) (complete : b.Complete)
    (c : Catalogue) (actions : List Action) : (b.performAll c actions).Complete := by
  induction actions generalizing b with
  | nil => exact complete
  | cons action rest ih =>
    have change := perform_change c b action
    exact ih (tracked.change change) (complete.change tracked change)


/-! ### After the calls -/

/-- The bench after calls, when the document is finished. -/
def after (c : Catalogue) (registry : Registry) (calls : List Call) : Bench :=
  ((start registry).runAll c calls).finish c

theorem runAll_performAll (b : Bench) (c : Catalogue) (calls : List Call) :
    ∃ actions, b.runAll c calls = b.performAll c actions := by
  induction calls generalizing b with
  | nil => exact ⟨[], rfl⟩
  | cons call rest ih =>
    obtain ⟨actions, same⟩ := ih (b.call c call)
    refine ⟨call.actions c b ++ actions, ?_⟩
    rw [performAll_append]
    exact same

variable (c : Catalogue) (registry : Registry) (calls : List Call)

theorem after_performAll :
    ∃ actions, after c registry calls = (start registry).performAll c actions := by
  obtain ⟨actions, same⟩ := (start registry).runAll_performAll c calls
  refine ⟨actions ++ [.settle], ?_⟩
  rw [after, same, performAll_append]
  rfl

theorem after_rules : (after c registry calls).rules = registry.rules := by
  obtain ⟨actions, same⟩ := after_performAll c registry calls
  rw [same, performAll_rules]
  rfl

theorem after_tracked : (after c registry calls).Tracked := by
  obtain ⟨actions, same⟩ := after_performAll c registry calls
  rw [same]
  exact performAll_tracked (start_tracked registry) c actions

theorem after_logged : (after c registry calls).Logged := by
  obtain ⟨actions, same⟩ := after_performAll c registry calls
  rw [same]
  exact performAll_logged (start_tracked registry) (start_logged registry) c actions

theorem after_complete : (after c registry calls).Complete := by
  obtain ⟨actions, same⟩ := after_performAll c registry calls
  rw [same]
  exact performAll_complete (start_tracked registry) (start_complete registry) c actions

variable {c registry calls}

theorem after_lossless (plainTags : c.HasPlainTags) : (after c registry calls).Lossless := by
  obtain ⟨actions, same⟩ := after_performAll c registry calls
  rw [same]
  exact performAll_lossless plainTags (start_tracked registry) (start_lossless registry) actions

/-- What is finished is on the bench, with a root that is settled if it can be. -/
structure Finished (b : Bench) (d : Document) (found : List Diagnostic) (root : Piece) : Prop where
  closed : b.works = []
  made : b.root = some root
  element : d.root = root.element
  found : found = (b.notes.map Note.diagnostic).reverse
  settled : b.rules.declares root.tag = true → root.settled = true

theorem finish_works {b : Bench} (closed : b.works = []) : (b.finish c).works = [] := by
  unfold finish
  simp only [perform, closed]
  split
  · split
    · exact closed
    · exact (check_works ..).trans closed
  · exact closed

theorem finish_settled {b : Bench} (closed : b.works = []) {q : Piece}
    (root : (b.finish c).root = some q) (declared : b.rules.declares q.tag = true) :
    q.settled = true := by
  cases made : b.root with
  | none =>
    simp only [finish, perform, closed, made] at root
    cases root
  | some p =>
    simp only [finish, perform, closed, made] at root
    split at root
    · rw [made] at root
      cases root
      assumption
    · rename_i unsettled
      have checked : (b.check .strict .nowhere false p []).1.1 = q := Option.some.inj root
      cases declared' : b.rules.declares p.tag with
      | false =>
        rw [check_of_undeclared declared'] at checked
        rw [← checked, declared'] at declared
        cases declared
      | true =>
        rw [check_of_declared declared'] at checked
        rw [← checked, Piece.examine_of_open .strict (Bool.eq_false_iff.2 unsettled)]
        rfl

/-- A document that is finished is what is left on the bench. -/
theorem after_finished {kit : Kit} {d : Document} {found : List Diagnostic} {a : Assembly}
    (finished : (Assembly.finish kit).run ((Assembly.start registry).runAll kit calls) =
      (.ok (d, found), a)) :
    (∃ root, (after kit.catalogue registry calls).Finished d found root) ∧
      (kit.strict = true → found = []) := by
  obtain ⟨same, idle⟩ := assembly_runAll (start_idle registry) kit calls
  rw [start_assembly] at same
  rw [← same] at finished
  obtain ⟨closed, ⟨root, made, element⟩, logged, strict⟩ := finish_eq_ok idle finished
  refine ⟨⟨root, finish_works closed, made, element, logged,
    fun declared => finish_settled closed made ?_⟩, strict⟩
  rwa [after, finish, (perform_change kit.catalogue _ .settle).rules] at declared

/-- What was logged when the document is finished is what the bench has notes of. -/
theorem after_log (kit : Kit) (registry : Registry) (calls : List Call) :
    ((Assembly.finish kit).run ((Assembly.start registry).runAll kit calls)).2.log =
      (after kit.catalogue registry calls).log := by
  obtain ⟨same, idle⟩ := assembly_runAll (start_idle registry) kit calls
  rw [start_assembly] at same
  rw [← same]
  exact finish_log idle kit

theorem after_found {kit : Kit} {d : Document} {found : List Diagnostic} {a : Assembly}
    (finished : (Assembly.finish kit).run ((Assembly.start registry).runAll kit calls) =
      (.ok (d, found), a)) : a.log.found = found.reverse := by
  obtain ⟨⟨root, done⟩, -⟩ := after_finished finished
  have logged := after_log kit registry calls
  rw [finished] at logged
  rw [done.found, List.reverse_reverse]
  exact congrArg Log.found logged

section Finished

variable {b : Bench} {d : Document} {found : List Diagnostic} {root : Piece}

theorem Finished.done (finished : b.Finished d found root) : b.done = root :: b.lost := by
  rw [Bench.done, finished.made]
  rfl

/-- The elements on the bench are those in the document and those that were lost. -/
theorem Finished.serials (finished : b.Finished d found root) :
    b.serials = root.serials ++ b.lost.flatMap Piece.serials := by
  rw [Bench.serials, finished.closed, finished.done, List.flatMap_nil, List.nil_append,
    List.flatMap_cons]

theorem Finished.distinct (finished : b.Finished d found root) (tracked : b.Tracked) :
    root.serials.Nodup := by
  have distinct := tracked.distinct
  rw [finished.serials] at distinct
  exact (List.nodup_append.1 distinct).1

theorem Finished.entry_tracked (finished : b.Finished d found root) (tracked : b.Tracked)
    {spot : Spot} (member : spot ∈ root.spots b.rules false) : spot.entry.Tracked b.history :=
  tracked.done root (by rw [finished.done]; exact List.mem_cons_self) _ (List.mem_map_of_mem member)

theorem Finished.entry_settled (finished : b.Finished d found root)
    (declared : b.rules.declares root.tag = true) {spot : Spot}
    (member : spot ∈ root.spots b.rules false) : spot.entry.settled = true := by
  rw [Piece.spots_of_settled false (finished.settled declared)] at member
  exact root.settled_of_mem_spots member

theorem Finished.validate (finished : b.Finished d found root) :
    (⟨d.root.tag, b.rules⟩ : Validator).validate d.root =
      (root.spots b.rules false).flatMap (Spot.violations root.tag) := by
  rw [Validator.validate, if_pos rfl, finished.element, Piece.element_tag,
    root.violations_element b.rules root.tag false]

/-- For each violation in the document there is a note about it. -/
theorem note_of_violation (tracked : b.Tracked) (lossless : b.Lossless)
    (finished : b.Finished d found root) (declared : b.rules.declares root.tag = true)
    {x : Violation} (member : x ∈ (⟨d.root.tag, b.rules⟩ : Validator).validate d.root) :
    ∃ spot ∈ root.spots b.rules false, x ∈ spot.violations root.tag ∧
      ∃ n ∈ b.notes, n.mark.serial = spot.entry.serial ∧ n.mark.fault = x.fault := by
  rw [finished.validate] at member
  obtain ⟨spot, here, violation⟩ := List.mem_flatMap.1 member
  obtain ⟨f, fault, same⟩ := List.mem_map.1 violation
  obtain ⟨own, seen⟩ := (finished.entry_tracked tracked here).found_of_settled
    (finished.entry_settled declared here) f fault
  obtain ⟨n, logged, mark⟩ := List.mem_map.1 (lossless.kept _ seen)
  exact ⟨spot, here, violation, n, logged, by rw [mark], by rw [mark, ← same]⟩

/-- If there are no violations in the document, the notes are about elements that were lost, or
about what the construction of an element went on to set. -/
theorem note_of_valid (tracked : b.Tracked) (logged : b.Logged) (complete : b.Complete)
    (finished : b.Finished d found root)
    (valid : (⟨d.root.tag, b.rules⟩ : Validator).validate d.root = []) :
    ∀ n ∈ b.notes, n.mark.serial ∈ b.lost.flatMap Piece.serials ∨
      n.mark.serial ∈ root.serials ∧ n.mark.own = true ∧ n.mark.fault.Passing ∧
        n.mark.serial ∈ b.history.reshaped := by
  intro n member
  have seen := logged.seen n.mark (List.mem_map_of_mem member)
  have there := complete _ (tracked.seen_fresh _ seen)
  rw [finished.serials, List.mem_append] at there
  refine there.symm.imp_right fun inside => ⟨inside, ?_⟩
  rw [← root.map_serial_entries b.rules false] at inside
  obtain ⟨e, entry, serial⟩ := List.mem_map.1 inside
  obtain ⟨spot, here, rfl⟩ := List.mem_map.1 entry
  have faultless (f : Fault) : f ∉ spot.entry.faults := by
    rw [finished.validate, List.flatMap_eq_nil_iff] at valid
    rw [List.map_eq_nil_iff.1 (valid spot here)]
    exact List.not_mem_nil
  have entryTracked := finished.entry_tracked tracked here
  cases own : n.mark.own with
  | false =>
    have later : (⟨spot.entry.serial, false, n.mark.fault⟩ : Mark) = n.mark := by
      rw [serial, ← own]
    rw [← later] at seen
    exact absurd (entryTracked.stays _ seen) (faultless _)
  | true =>
    have early : (⟨spot.entry.serial, true, n.mark.fault⟩ : Mark) = n.mark := by
      rw [serial, ← own]
    rw [← early] at seen
    obtain ⟨passing, reshaped⟩ := (entryTracked.passes _ seen).resolve_left (faultless _)
    rw [serial] at reshaped
    exact ⟨rfl, passing, reshaped⟩

end Finished

section After

variable {kit : Kit} {d : Document} {found : List Diagnostic} {a : Assembly} {v : Validator}

/-- For each violation in a finished document there is a note about the same element. -/
theorem after_violation (plainTags : kit.catalogue.HasPlainTags)
    (finished : (Assembly.finish kit).run ((Assembly.start registry).runAll kit calls) =
      (.ok (d, found), a))
    (declared : registry.validator? d.root.tag = some v) :
    ∃ root, (after kit.catalogue registry calls).Finished d found root ∧ root.serials.Nodup ∧
      ∀ x ∈ v.validate d.root, ∃ spot ∈ root.spots v.schema false,
        x ∈ spot.violations root.tag ∧
        ∃ n ∈ (after kit.catalogue registry calls).notes,
          n.mark.serial = spot.entry.serial ∧ n.mark.fault = x.fault := by
  obtain ⟨⟨root, done⟩, -⟩ := after_finished finished
  obtain ⟨declares, rfl⟩ := Registry.of_validator? declared
  have tracked := after_tracked kit.catalogue registry calls
  refine ⟨root, done, done.distinct tracked, fun x member => ?_⟩
  rw [done.element, Piece.element_tag, ← after_rules kit.catalogue registry calls] at declares
  rw [← after_rules kit.catalogue registry calls] at member ⊢
  exact note_of_violation tracked (after_lossless plainTags) done declares member

/-- For a valid document there are only notes about what is not in it or was overtaken. -/
theorem after_valid
    (finished : (Assembly.finish kit).run ((Assembly.start registry).runAll kit calls) =
      (.ok (d, found), a))
    (declared : registry.validator? d.root.tag = some v) (valid : v.validate d.root = []) :
    let b := after kit.catalogue registry calls
    ∃ root, b.Finished d found root ∧ b.serials.Nodup ∧
      ∀ n ∈ b.notes, n.mark.serial ∈ b.lost.flatMap Piece.serials ∨
        n.mark.serial ∈ root.serials ∧ n.mark.own = true ∧ n.mark.fault.Passing ∧
          n.mark.serial ∈ b.history.reshaped := by
  obtain ⟨⟨root, done⟩, -⟩ := after_finished finished
  obtain ⟨-, rfl⟩ := Registry.of_validator? declared
  have tracked := after_tracked kit.catalogue registry calls
  rw [← after_rules kit.catalogue registry calls] at valid
  exact ⟨root, done, tracked.distinct,
    note_of_valid tracked (after_logged ..) (after_complete _ _ _) done valid⟩

end After

/-! ### What is reported twice -/

/-- There are two notes about a fault of an element. -/
def ReportedTwice (b : Bench) (serial : Nat) (f : Fault) : Prop :=
  ∃ later earlier : Mark, [later, earlier].Sublist b.kept ∧
    (later.serial = serial ∧ later.fault = f) ∧ earlier.serial = serial ∧ earlier.fault = f

/-- What is reported twice was reported by the construction, and then once more because something
had changed. -/
theorem Logged.of_reportedTwice {b : Bench} (logged : b.Logged) (tracked : b.Tracked)
    {serial : Nat} {f : Fault} (twice : b.ReportedTwice serial f) :
    ⟨serial, true, f⟩ ∈ b.kept ∧ ⟨serial, false, f⟩ ∈ b.kept ∧ f.isMissingElement = false ∧
      serial ∈ b.history.stale := by
  obtain ⟨later, earlier, both, ⟨rfl, rfl⟩, serial, fault⟩ := twice
  obtain ⟨after, before, present, stale⟩ :=
    List.pairwise_iff_forall_sublist.1 (logged.twice tracked) both serial.symm fault.symm
  have early : (⟨later.serial, true, later.fault⟩ : Mark) = earlier := by
    rw [← serial, ← fault, ← before]
  have late : (⟨later.serial, false, later.fault⟩ : Mark) = later := by
    rw [← after]
  rw [early, late]
  exact ⟨both.subset (by simp), both.subset (by simp), present, stale⟩

theorem Logged.reportedTwice {b : Bench} (logged : b.Logged) {serial : Nat} {f : Fault}
    (early : ⟨serial, true, f⟩ ∈ b.kept) (late : ⟨serial, false, f⟩ ∈ b.kept) :
    b.ReportedTwice serial f := by
  obtain ⟨before, after, split⟩ := List.append_of_mem early
  have follows := logged.once
  rw [split] at follows late
  rcases List.mem_append.1 late with first | last
  · refine ⟨⟨serial, false, f⟩, ⟨serial, true, f⟩, ?_, ⟨rfl, rfl⟩, rfl, rfl⟩
    rw [split]
    exact (List.singleton_sublist.2 first).append
      (List.singleton_sublist.2 List.mem_cons_self)
  · -- the construction has the first word
    have last : (⟨serial, false, f⟩ : Mark) ∈ after :=
      (List.mem_cons.1 last).resolve_left fun same => by cases same
    have order := (List.pairwise_cons.1 (List.pairwise_append.1 follows).2.1).1 _ last
    cases (order rfl rfl).1

/-- A check has looked at an element again after something had changed. -/
def Relooked (b : Bench) (e : Entry) : Prop :=
  e.serial ∈ b.history.stale ∧ (e.checked = true ∨ e.settled = true)

/-- What was found again is what is still there. -/
theorem Tracked.found_again {b : Bench} (tracked : b.Tracked) {e : Entry} (there : e ∈ b.entries)
    {f : Fault} (present : f.isMissingElement = false) :
    ⟨e.serial, false, f⟩ ∈ b.history.seen ↔ b.Relooked e ∧ f ∈ e.faults := by
  have stale (seen : ⟨e.serial, false, f⟩ ∈ b.history.seen) : e.serial ∈ b.history.stale :=
    tracked.later _ seen rfl present
  have ofEntry (entry : e.Tracked b.history) :
      ⟨e.serial, false, f⟩ ∈ b.history.seen ↔ b.Relooked e ∧ f ∈ e.faults := by
    refine ⟨fun seen => ⟨⟨stale seen, ?_⟩, entry.stays f seen⟩, fun ⟨⟨stale, looked⟩, fault⟩ =>
      entry.again looked stale f fault present⟩
    cases checked : e.checked with
    | true => exact .inl rfl
    | false =>
      cases settled : e.settled with
      | true => exact .inr rfl
      | false => exact absurd seen (entry.untouched settled checked f)
  obtain ⟨p, member, inside⟩ := List.mem_flatMap.1 there
  rcases List.mem_append.1 member with atWork | done
  · obtain ⟨w, working, rfl⟩ := List.mem_map.1 atWork
    have top := tracked.works w working
    rw [Piece.entries_eq, top.unsettled] at inside
    rcases List.mem_cons.1 inside with rfl | inside
    · -- of what is at work only the piece itself is not done
      refine ⟨fun seen => ⟨⟨stale seen, .inl ?_⟩, top.stays f seen⟩, ?_⟩
      · cases checked : w.piece.checked with
        | true => exact checked
        | false => exact absurd seen ((tracked.rested w working).untouched checked f)
      · rintro ⟨⟨stale, checked | settled⟩, fault⟩
        · exact top.again checked stale f fault present
        · have unsettled : w.piece.settled = true := settled
          rw [top.unsettled] at unsettled
          cases unsettled
    · obtain ⟨c, child, inner⟩ := List.mem_flatMap.1 inside
      exact ofEntry (top.inside c child e inner)
  · exact ofEntry (tracked.done p done e inside)

/-- What the construction of an element reported is reported once more just if it stayed, and the
element was looked at again. -/
theorem reportedTwice_iff {b : Bench} (tracked : b.Tracked) (logged : b.Logged)
    (lossless : b.Lossless) {e : Entry} (there : e ∈ b.entries) (f : Fault) :
    b.ReportedTwice e.serial f ↔
      ⟨e.serial, true, f⟩ ∈ b.kept ∧ b.Relooked e ∧ f ∈ e.faults := by
  constructor
  · intro twice
    obtain ⟨early, late, present, -⟩ := logged.of_reportedTwice tracked twice
    exact ⟨early, (tracked.found_again there present).1 (logged.seen _ late)⟩
  · rintro ⟨early, again⟩
    have present : f.isMissingElement = false := tracked.present _ (logged.seen _ early) rfl
    have late := (tracked.found_again there present).2 again
    exact logged.reportedTwice early (lossless.kept _ late)

/-- The numbers on the bench are those that were given out. -/
theorem Complete.numbers {b : Bench} (complete : b.Complete) (tracked : b.Tracked) :
    (b.entries.map (·.serial)).Perm (List.range b.nextSerial) := by
  rw [serials_entries]
  refine (List.perm_ext_iff_of_nodup tracked.distinct List.nodup_range).2 fun n => ?_
  rw [List.mem_range]
  exact ⟨tracked.fresh n, complete n⟩

end Bench

end ScoreScript
