import ScoreScript.Proofs.Building.Outcome
import ScoreScript.Proofs.Run.Conduct

/-!
What the diagnostics of a document say about it. Main statements: no violation is lost, as
`no_violation_lost` says; in a valid document only what was overtaken is reported, as
`overtaken_of_valid` says; and `reported_once_iff` tells when nothing is reported twice.
-/

namespace ScoreScript

namespace Run

variable {kit : Kit} {registry registry' : Registry} {m : Script.Module} {o : Output}

theorem ofModule_eq_ok (ran : ofModule kit registry m = (.ok o, registry')) :
    m.verdict.check = .ok () ∧
      ∃ s, (whole kit m).run ⟨.start kit.catalogue, .start registry⟩ = (.ok o, s) := by
  unfold ofModule at ran
  cases passed : m.verdict.check with
  | error e =>
    rw [passed] at ran
    cases ran
  | ok _ =>
    rw [passed] at ran
    have result := congrArg Prod.fst ran
    exact ⟨rfl, ((whole kit m).run ⟨.start kit.catalogue, .start registry⟩).2, Prod.ext result rfl⟩

theorem ofModule_of_whole {s : Session} (passed : m.verdict.check = .ok ())
    (ran : (whole kit m).run ⟨.start kit.catalogue, .start registry⟩ = (.ok o, s)) :
    ofModule kit registry m = (.ok o, s.assembly.log.registry) := by
  rw [ofModule, passed]
  simp only [ran]

/-- The document of a script is put together by calls. -/
theorem ofModule_calls (ran : ofModule kit registry m = (.ok o, registry')) :
    ∃ calls a, (Assembly.finish kit).run ((Assembly.start registry).runAll kit calls) =
      (.ok (o.document, o.diagnostics), a) := by
  obtain ⟨-, s, whole⟩ := ofModule_eq_ok ran
  obtain ⟨calls, finished⟩ := whole_calls whole
  exact ⟨calls, s.assembly, finished⟩

/-- Where violations are errors a script does as it does where they are not, if there is nothing
to report, and fails otherwise. -/
theorem strict_iff_quiet (ran : ofModule kit registry m = (.ok o, registry')) (o' : Output) :
    (∃ result, ofModule { kit with strict := true } registry m = (.ok o', result)) ↔
      o' = o ∧ o.diagnostics = [] := by
  obtain ⟨passed, s, lenient⟩ := ofModule_eq_ok ran
  constructor
  · rintro ⟨result, strict⟩
    obtain ⟨-, s', strict⟩ := ofModule_eq_ok strict
    obtain ⟨calls, finished⟩ := whole_calls strict
    have quiet := (Bench.after_finished finished).2 rfl
    have found := Bench.after_found finished
    rw [quiet] at found
    have same := whole_quiet kit.strict strict found
    have both : (whole kit m).run ⟨.start kit.catalogue, .start registry⟩ = (.ok o', s') := same
    rw [lenient] at both
    cases both
    exact ⟨rfl, quiet⟩
  · rintro ⟨rfl, quiet⟩
    obtain ⟨calls, finished⟩ := whole_calls lenient
    have found := Bench.after_found finished
    rw [quiet] at found
    exact ⟨_, ofModule_of_whole passed (whole_quiet true lenient found)⟩

end Run

/-! ### Measures with beats

A small catalogue to see reports with: measures have a number and hold beats. -/

namespace Beats

def catalogue : Catalogue where
  types := #[
    ⟨"Measure", "measure", [("number", .attr "number" none), ("Beats", .child ⟨1⟩)], [], [], none,
      false⟩,
    ⟨"Beats", "beats", [("content", .text)], [], [], none, false⟩]
  globals := [("Measure", ⟨0⟩), ("Beats", ⟨1⟩)]
  declaration := ""
  doctypes := []

theorem catalogue_hasPlainTags : catalogue.HasPlainTags := by
  intro ⟨index⟩ type known
  match index with
  | 0 | 1 =>
    cases known
    decide
  | _ + 2 => cases known

def schema : Schema where
  format := ""
  version := ""
  elements := [
    ("measure", {
      attributes := [("number", { required := true })]
      content := .sequence [⟨.element "beats", 1, none⟩] }),
    ("beats", { content := .text {} })]

def kit : Kit :=
  ⟨catalogue, false⟩

def registry : Registry :=
  .ofSchema (some schema)

/-- The report that a measure has no number. -/
def unnumbered : Diagnostic :=
  ⟨.nowhere, .tolerant, ⟨.missingAttribute "number", "measure"⟩⟩

/-- Make a measure with beats. -/
def without : Call :=
  .create ⟨0⟩ ⟨[], [("Beats", .str "3")]⟩ .nowhere

/-- Make a measure with beats and then a number. -/
def lateNumber : Call :=
  .create ⟨0⟩ ⟨[], [("Beats", .str "3"), ("number", .str "1")]⟩ .nowhere

def measure (attributes : Assoc String) : Document :=
  ⟨"", ⟨"measure", attributes, [⟨"beats", [], [], some "3", true, true⟩], none, true, true⟩⟩

def withoutNumber : Document := measure []

def withNumber : Document := measure [("number", "1")]

/-- The script `Measure(Beats="3", number="1")`. -/
def late : Script.Module where
  body := [.expr (.call (.name "Measure" .load .nowhere) []
    [.mk (some "Beats") (.constant (.str "3") .nowhere) .nowhere,
      .mk (some "number") (.constant (.str "1") .nowhere) .nowhere] .nowhere) .nowhere]

/-- Open a measure with beats and make others in it. -/
def reopened : List Call :=
  [.openScope ⟨0⟩ ⟨[], [("Beats", .str "3")]⟩ .nowhere, .create ⟨1⟩ ⟨[.str "4"], []⟩ .nowhere,
    .close ⟨0, ⟨0⟩⟩]

end Beats

/-- No violation is lost: for each one in a finished document some diagnostic was raised for the
same element. So where violations are errors, a script that succeeds makes a valid document. -/
theorem no_violation_lost {kit : Kit} (plainTags : kit.catalogue.HasPlainTags)
    (registry : Registry) :
    (∀ calls d found a v,
      (Assembly.finish kit).run ((Assembly.start registry).runAll kit calls) =
        (.ok (d, found), a) →
      registry.validator? d.root.tag = some v →
      ∃ root, (Bench.after kit.catalogue registry calls).Finished d found root ∧
        root.serials.Nodup ∧
        ∀ x ∈ v.validate d.root, ∃ spot ∈ root.spots v.schema false,
          x ∈ spot.violations root.tag ∧
          ∃ n ∈ (Bench.after kit.catalogue registry calls).notes,
            n.mark.serial = spot.entry.serial ∧ n.mark.fault = x.fault) ∧
    (kit.strict = true → ∀ m o registry' v,
      Run.ofModule kit registry m = (.ok o, registry') →
      registry.validator? o.document.root.tag = some v → v.validate o.document.root = []) := by
  refine ⟨fun calls d found a v finished => Bench.after_violation plainTags finished, ?_⟩
  intro strict m o registry' v ran declared
  obtain ⟨calls, a, finished⟩ := Run.ofModule_calls ran
  obtain ⟨root, done, -, complete⟩ := Bench.after_violation plainTags finished declared
  have quiet := (Bench.after_finished finished).2 strict
  rw [done.found, List.reverse_eq_nil_iff, List.map_eq_nil_iff] at quiet
  rw [List.eq_nil_iff_forall_not_mem]
  intro x member
  obtain ⟨spot, -, -, n, logged, -⟩ := complete x member
  rw [quiet] at logged
  cases logged

/-- A measure without a number is reported. -/
theorem no_violation_lost_without_number :
    Beats.catalogue.HasPlainTags ∧
      ∃ n ∈ (Bench.after Beats.catalogue Beats.registry [Beats.without]).notes,
        n.mark.fault = .missingAttribute "number" := by
  have finished : ((Assembly.finish Beats.kit).run
      ((Assembly.start Beats.registry).runAll Beats.kit [Beats.without])).1 =
        .ok (Beats.withoutNumber, [Beats.unnumbered]) := rfl
  have member : ⟨.missingAttribute "number", "measure"⟩ ∈
      (⟨"measure", Beats.schema⟩ : Validator).validate Beats.withoutNumber.root := by decide
  have plainTags : Beats.kit.catalogue.HasPlainTags := Beats.catalogue_hasPlainTags
  obtain ⟨root, -, -, complete⟩ :=
    (no_violation_lost plainTags Beats.registry).1 _ _ _ _ _ (Prod.ext finished rfl) rfl
  obtain ⟨spot, -, -, n, noted, -, fault⟩ := complete _ member
  exact ⟨plainTags, n, noted, fault⟩

/-- A diagnostic of a valid document is about an element that was lost, or about what a
construction had yet to set when it had got to a child. Where violations are errors a script does
as it does where they are not, if there are no diagnostics, and fails otherwise. -/
theorem overtaken_of_valid (kit : Kit) (registry : Registry) :
    (∀ calls d found a v,
      (Assembly.finish kit).run ((Assembly.start registry).runAll kit calls) =
        (.ok (d, found), a) →
      registry.validator? d.root.tag = some v → v.validate d.root = [] →
      let b := Bench.after kit.catalogue registry calls
      ∃ root, b.Finished d found root ∧ b.serials.Nodup ∧
        ∀ n ∈ b.notes, n.mark.serial ∈ b.lost.flatMap Piece.serials ∨
          n.mark.serial ∈ root.serials ∧ n.mark.own = true ∧ n.mark.fault.Passing ∧
            n.mark.serial ∈ b.history.reshaped) ∧
    ∀ m o registry', Run.ofModule kit registry m = (.ok o, registry') →
      (∃ calls a, (Assembly.finish kit).run ((Assembly.start registry).runAll kit calls) =
        (.ok (o.document, o.diagnostics), a)) ∧
      ∀ o', (∃ result, Run.ofModule { kit with strict := true } registry m = (.ok o', result)) ↔
        o' = o ∧ o.diagnostics = [] :=
  ⟨fun _ _ _ _ _ => Bench.after_valid, fun _ _ _ ran =>
    ⟨Run.ofModule_calls ran, Run.strict_iff_quiet ran⟩⟩

/-- Of a measure whose number comes after its beats the construction is reported. -/
theorem overtaken_of_valid_late :
    ∃ n ∈ (Bench.after Beats.catalogue Beats.registry [Beats.lateNumber]).notes,
      n.mark.own = true ∧ n.mark.fault.Passing := by
  have finished : ((Assembly.finish Beats.kit).run
      ((Assembly.start Beats.registry).runAll Beats.kit [Beats.lateNumber])).1 =
        .ok (Beats.withNumber, [Beats.unnumbered]) := rfl
  have valid : (⟨"measure", Beats.schema⟩ : Validator).validate Beats.withNumber.root = [] := by
    decide
  obtain ⟨root, done, -, overtaken⟩ := (overtaken_of_valid Beats.kit Beats.registry).1
    _ _ _ _ _ (Prod.ext finished rfl) rfl valid
  have kept : (Bench.after Beats.kit.catalogue Beats.registry [Beats.lateNumber]).lost = [] := by
    rw [← List.isEmpty_iff]
    decide +kernel
  have noted : Beats.unnumbered ∈ [Beats.unnumbered] := List.mem_cons_self
  rw [done.found, List.mem_reverse] at noted
  obtain ⟨n, member, -⟩ := List.mem_map.1 noted
  rcases overtaken n member with lost | ⟨-, own, passing, -⟩
  · rw [kept] at lost
    cases lost
  · exact ⟨n, member, own, passing⟩

/-- A measure whose number comes after its beats is valid, but it is reported. -/
theorem valid_but_reported :
    ∃ o registry' v, Run.ofModule Beats.kit Beats.registry Beats.late = (.ok o, registry') ∧
      Beats.registry.validator? o.document.root.tag = some v ∧ v.validate o.document.root = [] ∧
      o.diagnostics = [Beats.unnumbered] := by
  have passed : Beats.late.verdict.check = .ok () := by
    rw [show Beats.late.verdict = ⟨[], []⟩ by decide +kernel]
    rfl
  have ran : ((Run.whole Beats.kit Beats.late).run
      ⟨.start Beats.kit.catalogue, .start Beats.registry⟩).1 =
        .ok ⟨Beats.withNumber, [Beats.unnumbered]⟩ := rfl
  exact ⟨_, _, _, Run.ofModule_of_whole passed (Prod.ext ran rfl), rfl, rfl, rfl⟩

/-- Diagnostics are about what the bench has notes of, and an element is reported for a fault at
most twice, by its construction and once afterwards. Nothing is reported twice just if no element
was looked at again after a change and still had a fault that its construction had reported. -/
theorem reported_once_iff (kit : Kit) (registry : Registry) (calls : List Call) :
    let b := Bench.after kit.catalogue registry calls
    ((Assembly.finish kit).run ((Assembly.start registry).runAll kit calls)).2.log.found =
      b.notes.map Note.diagnostic ∧
    (b.entries.map (·.serial)).Perm (List.range b.nextSerial) ∧
    (b.kept.Pairwise fun later earlier =>
      later.serial = earlier.serial → later.fault = earlier.fault →
        later.own = false ∧ earlier.own = true) ∧
    (∀ serial f, b.ReportedTwice serial f → ∃ e ∈ b.entries, e.serial = serial ∧
      ⟨serial, true, f⟩ ∈ b.kept ∧ b.Relooked e ∧ f ∈ e.faults) ∧
    (kit.catalogue.HasPlainTags →
      ((∀ serial f, ¬ b.ReportedTwice serial f) ↔
        ∀ e ∈ b.entries, b.Relooked e → ∀ f ∈ e.faults, ⟨e.serial, true, f⟩ ∉ b.kept)) := by
  intro b
  have tracked := Bench.after_tracked kit.catalogue registry calls
  have logged := Bench.after_logged kit.catalogue registry calls
  have complete := Bench.after_complete kit.catalogue registry calls
  have again (serial : Nat) (f : Fault) (twice : b.ReportedTwice serial f) :
      ∃ e ∈ b.entries, e.serial = serial ∧
        ⟨serial, true, f⟩ ∈ b.kept ∧ b.Relooked e ∧ f ∈ e.faults := by
    obtain ⟨early, late, present, -⟩ := logged.of_reportedTwice tracked twice
    have numbered := complete serial (tracked.seen_fresh _ (logged.seen _ early))
    rw [← Bench.serials_entries] at numbered
    obtain ⟨e, there, rfl⟩ := List.mem_map.1 numbered
    exact ⟨e, there, rfl, early, (tracked.found_again there present).1 (logged.seen _ late)⟩
  refine ⟨congrArg Log.found (Bench.after_log kit registry calls), complete.numbers tracked,
    logged.once, again, fun plainTags => ?_⟩
  have lossless : b.Lossless := Bench.after_lossless plainTags
  constructor
  · intro once e there relooked f fault early
    exact once e.serial f
      ((Bench.reportedTwice_iff tracked logged lossless there f).2 ⟨early, relooked, fault⟩)
  · intro never serial f twice
    obtain ⟨e, there, rfl, early, relooked, fault⟩ := again serial f twice
    exact never e there relooked f fault early

/-- A measure that is made with beats and opened is reported once more when it gets others. -/
theorem reported_twice_reopened :
    (Bench.after Beats.catalogue Beats.registry Beats.reopened).ReportedTwice 0
      (.missingAttribute "number") := by
  have kept : (Bench.after Beats.catalogue Beats.registry Beats.reopened).kept =
      [⟨0, false, .missingAttribute "number"⟩, ⟨0, true, .missingAttribute "number"⟩] := by
    decide +kernel
  refine ⟨⟨0, false, .missingAttribute "number"⟩, ⟨0, true, .missingAttribute "number"⟩, ?_,
    ⟨rfl, rfl⟩, rfl, rfl⟩
  rw [kept]

/-!
Strict validation only refuses: a script does what it does with lenient validation, or else it
fails, for what was found first. Main statement: `strict_refuses`.
-/

/-- What refuses a log refuses it for the first diagnostic of all that were found later, too. -/
theorem Log.Refuses.of_prefix {log : Log} {e : Error} {first : Diagnostic}
    {rest : List Diagnostic} (told : log.Refuses e) (earlier : log.diagnostics <+: first :: rest) :
    ∃ tag count, e = ⟨.invalid tag count first.violation.text, first.span⟩ ∧
      1 ≤ count ∧ count ≤ (first :: rest).length := by
  obtain ⟨tag, first', rest', found, rfl⟩ := told
  have short := earlier.length_le
  rw [found] at earlier short ⊢
  obtain ⟨rfl, -⟩ := List.cons_prefix_cons.1 earlier
  exact ⟨tag, _, rfl, Nat.succ_pos rest'.length, short⟩

namespace Run

/-- What a script comes to. -/
def outcome (kit : Kit) (registry : Registry) (m : Script.Module) : Except Error Output :=
  (ofModule kit registry m).1

variable {kit : Kit} {registry : Registry} {m : Script.Module} {o : Output}

theorem outcome_of_rejected {e : Error} (rejected : m.verdict.check = .error e) :
    outcome kit registry m = .error e := by
  rw [outcome, ofModule, rejected]

theorem outcome_of_accepted (passed : m.verdict.check = .ok ()) :
    outcome kit registry m =
      ((whole kit m).run ⟨.start kit.catalogue, .start registry⟩).1 := by
  rw [outcome, ofModule, passed]
  rfl

/-- A document that strict validation lets pass has no diagnostics. -/
theorem quiet_of_strict (strict : kit.strict = true) (ran : outcome kit registry m = .ok o) :
    o.diagnostics = [] := by
  obtain ⟨calls, a, finished⟩ := ofModule_calls (Prod.ext ran rfl)
  exact (Bench.after_finished finished).2 strict

/-- The diagnostics of a document are all that was found on the way. -/
theorem diagnostics_of_whole {s s' : Session} (start : s.assembly = .start registry)
    (ran : (whole kit m).run s = (.ok o, s')) : s'.assembly.log.diagnostics = o.diagnostics := by
  obtain ⟨calls, finished⟩ := whole_calls ran
  rw [start] at finished
  rw [Log.diagnostics, Bench.after_found finished, List.reverse_reverse]

/-- A script does what it does with lenient validation, or it is refused for what had been found
by then. -/
theorem outcome_refused (kit : Kit) (registry : Registry) (m : Script.Module) :
    outcome kit registry m = outcome kit.lenient registry m ∨
      ∃ e, ∃ log : Log, outcome kit registry m = .error e ∧ log.Refuses e ∧
        ∀ o, outcome kit.lenient registry m = .ok o → log.diagnostics <+: o.diagnostics := by
  cases checked : m.verdict.check with
  | error e => exact .inl ((outcome_of_rejected checked).trans (outcome_of_rejected checked).symm)
  | ok _ =>
    rw [outcome_of_accepted checked, outcome_of_accepted checked]
    rcases whole_refused kit m ⟨.start kit.catalogue, .start registry⟩ with
      same | ⟨e, t, ended, told, onward⟩
    · exact .inl (congrArg Prod.fst same)
    · refine .inr ⟨e, t.assembly.log, congrArg Prod.fst ended, told, fun o ran => ?_⟩
      rw [← diagnostics_of_whole rfl (Prod.ext ran rfl)]
      exact List.reverse_prefix.2 onward

/-- Strict validation only refuses. A script that makes a document without diagnostics makes the
same one; if there are diagnostics, it fails for the first one; and a script that fails anyway
fails for the same reason, or for what was found before. -/
theorem strict_refuses (c : Catalogue) (registry : Registry) (m : Script.Module) :
    (∀ o, outcome ⟨c, true⟩ registry m = .ok o ↔
      outcome ⟨c, false⟩ registry m = .ok o ∧ o.diagnostics = []) ∧
    (∀ o first rest, outcome ⟨c, false⟩ registry m = .ok o → o.diagnostics = first :: rest →
      ∃ tag count, outcome ⟨c, true⟩ registry m =
          .error ⟨.invalid tag count first.violation.text, first.span⟩ ∧
        1 ≤ count ∧ count ≤ o.diagnostics.length) ∧
    (∀ e, outcome ⟨c, false⟩ registry m = .error e →
      outcome ⟨c, true⟩ registry m = .error e ∨
        ∃ tag count text span,
          outcome ⟨c, true⟩ registry m = .error ⟨.invalid tag count text, span⟩) := by
  have refused : outcome ⟨c, true⟩ registry m = outcome ⟨c, false⟩ registry m ∨
      ∃ e, ∃ log : Log, outcome ⟨c, true⟩ registry m = .error e ∧ log.Refuses e ∧
        ∀ o, outcome ⟨c, false⟩ registry m = .ok o → log.diagnostics <+: o.diagnostics :=
    outcome_refused ⟨c, true⟩ registry m
  rcases refused with same | ⟨e, log, ended, told, earlier⟩
  · rw [← same]
    refine ⟨fun o => ⟨fun ran => ⟨ran, quiet_of_strict rfl ran⟩, And.left⟩, ?_, fun _ => .inl⟩
    -- The strict run would have made a document with diagnostics.
    intro o first rest ran found
    rw [quiet_of_strict rfl ran] at found
    cases found
  · rw [ended]
    refine ⟨fun o => ⟨nofun, ?_⟩, ?_, ?_⟩
    · rintro ⟨ran, quiet⟩
      have none := earlier o ran
      rw [quiet, List.prefix_nil, Log.diagnostics, List.reverse_eq_nil_iff] at none
      exact (told.found_ne_nil none).elim
    · intro o first rest ran found
      have begun := earlier o ran
      rw [found] at begun ⊢
      obtain ⟨tag, count, rfl, counted⟩ := told.of_prefix begun
      exact ⟨tag, count, rfl, counted⟩
    · intro _ _
      obtain ⟨tag, first, rest, -, rfl⟩ := told
      exact .inr ⟨tag, _, _, _, rfl⟩

/-- The measure whose number comes after its beats is refused. -/
theorem strict_refuses_late :
    ∃ tag, outcome ⟨Beats.catalogue, true⟩ Beats.registry Beats.late =
      .error ⟨.invalid tag 1 Beats.unnumbered.violation.text, .nowhere⟩ := by
  have passed : Beats.late.verdict.check = .ok () := by
    rw [show Beats.late.verdict = ⟨[], []⟩ by decide +kernel]
    rfl
  have lenient : outcome ⟨Beats.catalogue, false⟩ Beats.registry Beats.late =
      .ok ⟨Beats.withNumber, [Beats.unnumbered]⟩ := by
    rw [outcome_of_accepted passed]
    rfl
  obtain ⟨tag, count, refused, low, high⟩ :=
    (strict_refuses Beats.catalogue Beats.registry Beats.late).2.1 _ _ _ lenient rfl
  obtain rfl : count = 1 := Nat.le_antisymm high low
  exact ⟨tag, refused⟩

end Run

end ScoreScript
