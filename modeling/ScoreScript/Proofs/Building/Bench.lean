import ScoreScript.Assembly.Basic
import ScoreScript.Proofs.Building.Spot
import ScoreScript.Proofs.Schema.Lookup

/-!
A document on the bench: what is put together, with the constructions that are still at work and
a serial number for each. The bench goes from one state to the next by single actions, and it
remembers for which element, and when in its life, a check found a fault. Forgetting all this
leaves an assembly.
-/

namespace ScoreScript

/-- The rules of a registry; one without a schema has none. -/
def Registry.rules (r : Registry) : Schema :=
  r.schema.getD ⟨"", "", []⟩

@[simp] theorem Registry.rules_record (r : Registry) (tag : String) :
    (r.record tag).rules = r.rules := by
  rw [rules, schema_record, rules]

/-- The validator for a tag checks by the rules of the registry, which must declare the tag. -/
theorem Registry.validator?_eq (r : Registry) (tag : String) :
    r.validator? tag = if r.rules.declares tag then some ⟨tag, r.rules⟩ else none := by
  rw [validator?_eq_compile?, Validator.compile?, rules]
  cases h : r.schema with
  | none => rfl
  | some s =>
    simp only [Option.bind_some, Option.getD_some, Validator.ofRoot]
    split <;> rfl

theorem Registry.of_validator? {r : Registry} {tag : String} {v : Validator}
    (declared : r.validator? tag = some v) : r.rules.declares tag = true ∧ v = ⟨tag, r.rules⟩ := by
  rw [validator?_eq] at declared
  split at declared
  · cases declared
    exact ⟨‹_›, rfl⟩
  · cases declared

/-- A fault of an element, found while its own construction was at work or later. -/
structure Mark where
  serial : Nat
  own : Bool
  fault : Fault
  deriving DecidableEq, Repr

/-- What a check found, and where. -/
structure Sighting where
  mark : Mark
  path : String
  deriving DecidableEq, Repr

def Sighting.violation (x : Sighting) : Violation :=
  ⟨x.mark.fault, x.path⟩

/-- A sighting that was logged. -/
structure Note extends Sighting where
  mode : Mode
  span : Span
  deriving DecidableEq, Repr

def Note.diagnostic (n : Note) : Diagnostic :=
  ⟨n.span, n.mode, n.violation⟩

/-- Log a sighting unless its text was reported. -/
def takeNote (mode : Mode) (span : Span) (taken : List String × List Note) (x : Sighting) :
    List String × List Note :=
  if taken.1.contains x.violation.text then taken
  else (x.violation.text :: taken.1, ⟨x, mode, span⟩ :: taken.2)

/-- The texts that are reported when all sightings were taken. -/
theorem mem_reported_takeNotes {mode : Mode} {span : Span} {found : List Sighting}
    {taken : List String × List Note} {text : String} :
    text ∈ (found.foldl (takeNote mode span) taken).1 ↔
      text ∈ taken.1 ∨ ∃ x ∈ found, x.violation.text = text := by
  induction found generalizing taken with
  | nil => simp
  | cons x rest ih =>
    rw [List.foldl_cons, ih]
    have first : text ∈ (takeNote mode span taken x).1 ↔
        text ∈ taken.1 ∨ x.violation.text = text := by
      unfold takeNote
      split
      · rename_i old
        refine ⟨.inl, fun new => new.elim id ?_⟩
        rintro rfl
        exact List.contains_iff_mem.1 old
      · rw [List.mem_cons, or_comm, eq_comm]
    rw [first, or_assoc, List.exists_mem_cons_iff]

/-- What a check finds at a spot; `own` says that the construction of the whole is at work. -/
def Spot.sightings (mode : Mode) (own : Bool) (path : String) (spot : Spot) : List Sighting :=
  (spot.entry.news mode).map fun fault =>
    ⟨⟨spot.entry.serial, own && spot.steps.isEmpty, fault⟩, pathTo path spot.steps⟩

def Piece.sightings (s : Schema) (mode : Mode) (own : Bool) (p : Piece) : List Sighting :=
  (p.spots s false).flatMap (Spot.sightings mode own p.tag)

/-- A piece at work: under construction, or open as the scope with a number. -/
structure Work where
  id : TypeId
  type : ElementType
  piece : Piece
  reported : List String
  scope : Option Nat
  span : Span

namespace Work

def own (w : Work) : Bool :=
  w.scope.isNone

def draft (w : Work) : Draft :=
  ⟨w.type, w.piece.element, w.reported⟩

def frame? (w : Work) : Option Frame :=
  w.scope.map fun scope => ⟨w.id, w.draft, scope, w.span⟩

end Work

/-- What the bench remembers of its past. -/
structure History where
  /-- What checks have found, last first, whether or not it was logged. -/
  seen : List Mark := []
  /-- The elements that got an attribute or a text after a child. -/
  reshaped : List Nat := []
  /-- The elements that were left unchecked when their construction was over, or got a child as
  scopes. -/
  stale : List Nat := []

namespace History

def saw (h : History) (marks : List Mark) : History :=
  { h with seen := marks ++ h.seen }

theorem seen_subset_saw (h : History) (marks : List Mark) : h.seen ⊆ (h.saw marks).seen :=
  List.subset_append_right marks h.seen

/-- An element under construction is changed, perhaps after it got a child. -/
def reshape (h : History) (p : Piece) : History :=
  if p.children.isEmpty then h else { h with reshaped := p.serial :: h.reshaped }

/-- The construction of an element is over, and perhaps its last change was not checked. -/
def release (h : History) (p : Piece) : History :=
  if p.checked then h else { h with stale := p.serial :: h.stale }

/-- A piece at work gets a child, perhaps as a scope. -/
def grow (h : History) (w : Work) : History :=
  if w.own then h else { h with stale := w.piece.serial :: h.stale }

variable {h : History}

@[simp] theorem seen_reshape (h : History) (p : Piece) : (h.reshape p).seen = h.seen := by
  unfold reshape
  split <;> rfl

@[simp] theorem seen_release (h : History) (p : Piece) : (h.release p).seen = h.seen := by
  unfold release
  split <;> rfl

@[simp] theorem seen_grow (h : History) (w : Work) : (h.grow w).seen = h.seen := by
  unfold grow
  split <;> rfl

@[simp] theorem reshaped_release (h : History) (p : Piece) :
    (h.release p).reshaped = h.reshaped := by
  unfold release
  split <;> rfl

@[simp] theorem reshaped_grow (h : History) (w : Work) : (h.grow w).reshaped = h.reshaped := by
  unfold grow
  split <;> rfl

@[simp] theorem stale_reshape (h : History) (p : Piece) : (h.reshape p).stale = h.stale := by
  unfold reshape
  split <;> rfl

theorem mem_reshaped_reshape {p : Piece} (parent : p.children.isEmpty = false) :
    p.serial ∈ (h.reshape p).reshaped := by
  rw [reshape, if_neg (by rw [parent]; exact Bool.false_ne_true)]
  exact List.mem_cons_self

theorem stale_release_of_checked {p : Piece} (checked : p.checked = true) :
    (h.release p).stale = h.stale := by
  rw [release, if_pos checked]

theorem mem_stale_release {p : Piece} (unchecked : p.checked = false) :
    p.serial ∈ (h.release p).stale := by
  rw [release, if_neg (by rw [unchecked]; exact Bool.false_ne_true)]
  exact List.mem_cons_self

theorem stale_grow_of_own {w : Work} (own : w.own = true) : (h.grow w).stale = h.stale := by
  rw [grow, if_pos own]

theorem subset_stale_release (h : History) (p : Piece) : h.stale ⊆ (h.release p).stale := by
  unfold release
  split
  · exact List.Subset.refl _
  · exact List.subset_cons_self _ _

theorem subset_stale_grow (h : History) (w : Work) : h.stale ⊆ (h.grow w).stale := by
  unfold grow
  split
  · exact List.Subset.refl _
  · exact List.subset_cons_self _ _

theorem forall_stale_release {P : Nat → Prop} {p : Piece} (old : ∀ n ∈ h.stale, P n)
    (new : P p.serial) : ∀ n ∈ (h.release p).stale, P n := by
  unfold release
  split
  · exact old
  · exact List.forall_mem_cons.2 ⟨new, old⟩

theorem forall_stale_grow {P : Nat → Prop} {w : Work} (old : ∀ n ∈ h.stale, P n)
    (new : P w.piece.serial) : ∀ n ∈ (h.grow w).stale, P n := by
  unfold grow
  split
  · exact old
  · exact List.forall_mem_cons.2 ⟨new, old⟩

theorem mem_stale_grow {w : Work} (scope : w.own = false) : w.piece.serial ∈ (h.grow w).stale := by
  rw [grow, if_neg (by rw [scope]; exact Bool.false_ne_true)]
  exact List.mem_cons_self

end History

/-- A document that is being put together; the innermost piece at work comes first. -/
structure Bench where
  works : List Work
  root : Option Piece
  /-- What was given up, or was the root before. -/
  lost : List Piece
  nextSerial : Nat
  nextScope : Nat
  registry : Registry
  history : History
  /-- What was logged, last first. -/
  notes : List Note

namespace Bench

def start (registry : Registry) : Bench :=
  ⟨[], none, [], 0, 0, registry, {}, []⟩

abbrev rules (b : Bench) : Schema :=
  b.registry.rules

/-- The marks that were logged. -/
def kept (b : Bench) : List Mark :=
  b.notes.map (·.mark)

def log (b : Bench) : Log :=
  ⟨b.registry, b.notes.map Note.diagnostic⟩

/-- The bench without what only it remembers. -/
def assembly (b : Bench) : Assembly :=
  ⟨b.works.filterMap Work.frame?, b.root.map Piece.element, b.nextScope, b.log⟩

/-- Check a piece for which some texts were reported. -/
def check (mode : Mode) (span : Span) (own : Bool) (p : Piece) (reported : List String)
    (b : Bench) : (Piece × List String) × Bench :=
  let b := { b with registry := b.registry.record p.tag }
  if b.rules.declares p.tag then
    let found := p.sightings b.rules mode own
    let (reported, notes) := found.foldl (takeNote mode span) (reported, b.notes)
    ((p.examine mode, reported),
      { b with history := b.history.saw (found.map (·.mark)), notes })
  else ((p, reported), b)

/-- Put a finished piece where it belongs: into the innermost one at work, or as the root. -/
def place (span : Span) (p : Piece) (b : Bench) : Bench :=
  match b.works with
  | [] => { b with root := some p, lost := b.root.toList ++ b.lost }
  | w :: below =>
    let ((piece, reported), b) := { b with history := b.history.grow w }.check .tolerant span w.own
      (w.piece.adopt w.type.order p) w.reported
    { b with works := { w with piece, reported } :: below }

/-- A new element is under construction. -/
def begun (id : TypeId) (type : ElementType) (span : Span) (b : Bench) : Bench :=
  { b with
    works := ⟨id, type, .empty b.nextSerial type.tag, [], none, span⟩ :: b.works
    nextSerial := b.nextSerial + 1 }

/-- The piece under construction has become another. -/
def reshaped (w : Work) (below : List Work) (p : Piece) (b : Bench) : Bench :=
  { b with
    works := { w with piece := p } :: below
    history := b.history.reshape w.piece }

/-- What was under construction is taken from the bench. -/
def released (w : Work) (below : List Work) (b : Bench) : Bench :=
  { b with works := below, history := b.history.release w.piece }

/-- Give up the constructions that are at work. -/
def discard (b : Bench) : List Work → Bench
  | [] => b
  | w :: below =>
    if w.own then { b.released w below with lost := w.piece :: b.lost }.discard below else b

/-- What was under construction is open as a scope. -/
def opened (w : Work) (below : List Work) (b : Bench) : Bench :=
  { b with
    works := { w with scope := some b.nextScope, reported := [] } :: below
    nextScope := b.nextScope + 1
    history := b.history.release w.piece }

/-- A scope is closed. -/
def closed (w : Work) (below : List Work) (b : Bench) : Bench :=
  let ((p, _), b) := { b with works := below }.check .strict w.span false w.piece w.reported
  b.place w.span p

/-- A root is settled. -/
def settledRoot (p : Piece) (b : Bench) : Bench :=
  let ((p, _), b) := b.check .strict .nowhere false p []
  { b with root := some p }

/-- Change the piece under construction. -/
def shape (change : Piece → Piece) (b : Bench) : Bench :=
  match b.works with
  | w :: below => if w.own then b.reshaped w below (change w.piece) else b
  | [] => b

end Bench

/-- The single actions that put a document together. -/
inductive Action where
  /-- Begin to construct an element of a type. -/
  | begin (id : TypeId) (span : Span)
  | setText (text : String)
  | setAttribute (name value : String)
  /-- The construction is done, and its piece goes where it belongs. -/
  | attach (span : Span)
  /-- The construction is done, and its piece stays open as a scope. -/
  | keep
  /-- What is under construction is given up. -/
  | discard
  /-- The innermost scope is checked strictly and goes where it belongs. -/
  | close
  /-- A root that was never closed is checked strictly. -/
  | settle

namespace Bench

def perform (c : Catalogue) (b : Bench) : Action → Bench
  | .begin id span =>
    match c.get? id with
    | none => b
    | some type => b.begun id type span
  | .setText text => b.shape (·.setText text)
  | .setAttribute name value => b.shape (·.setAttribute name value)
  | .attach span =>
    match b.works with
    | w :: below => if w.own then (b.released w below).place span w.piece else b
    | [] => b
  | .keep =>
    match b.works with
    | w :: below => if w.own then b.opened w below else b
    | [] => b
  | .discard => b.discard b.works
  | .close =>
    match b.works with
    | w :: below => if w.own then b else b.closed w below
    | [] => b
  | .settle =>
    match b.works, b.root with
    | [], some p => if p.settled then b else b.settledRoot p
    | _, _ => b

def performAll (c : Catalogue) (b : Bench) (actions : List Action) : Bench :=
  actions.foldl (perform c) b

@[simp] theorem performAll_nil (c : Catalogue) (b : Bench) : b.performAll c [] = b :=
  rfl

@[simp] theorem performAll_cons (c : Catalogue) (b : Bench) (action : Action)
    (rest : List Action) :
    b.performAll c (action :: rest) = (b.perform c action).performAll c rest :=
  rfl

theorem performAll_append (c : Catalogue) (b : Bench) (first second : List Action) :
    b.performAll c (first ++ second) = (b.performAll c first).performAll c second :=
  List.foldl_append

/-! ### What an action comes to -/

/-- What setting a text or an attribute makes of a piece. -/
inductive Shaped (p : Piece) : Piece → Prop where
  | setText (text : String) : Shaped p (p.setText text)
  | setAttribute (name value : String) : Shaped p (p.setAttribute name value)

/-- What an action does to a bench. -/
inductive Change (c : Catalogue) (b : Bench) : Bench → Prop where
  | nothing : Change c b b
  | begun (id : TypeId) (type : ElementType) (span : Span) (known : c.get? id = some type) :
      Change c b (b.begun id type span)
  | reshaped (w : Work) (below : List Work) (p : Piece) (works : b.works = w :: below)
      (own : w.own = true) (shaped : Shaped w.piece p) : Change c b (b.reshaped w below p)
  | attached (w : Work) (below : List Work) (span : Span) (works : b.works = w :: below)
      (own : w.own = true) : Change c b ((b.released w below).place span w.piece)
  | opened (w : Work) (below : List Work) (works : b.works = w :: below) (own : w.own = true) :
      Change c b (b.opened w below)
  | discarded : Change c b (b.discard b.works)
  | closed (w : Work) (below : List Work) (works : b.works = w :: below) (scope : w.own = false) :
      Change c b (b.closed w below)
  | settled (p : Piece) (works : b.works = []) (root : b.root = some p)
      (unsettled : p.settled = false) : Change c b (b.settledRoot p)

theorem shape_of_own {b : Bench} {w : Work} {below : List Work} (works : b.works = w :: below)
    (own : w.own = true) (change : Piece → Piece) :
    b.shape change = b.reshaped w below (change w.piece) := by
  rw [shape, works]
  exact if_pos own

theorem perform_attach {b : Bench} {w : Work} {below : List Work} (c : Catalogue) (span : Span)
    (works : b.works = w :: below) (own : w.own = true) :
    b.perform c (.attach span) = (b.released w below).place span w.piece := by
  simp only [perform, works]
  exact if_pos own

theorem perform_keep {b : Bench} {w : Work} {below : List Work} (c : Catalogue)
    (works : b.works = w :: below) (own : w.own = true) :
    b.perform c .keep = b.opened w below := by
  simp only [perform, works]
  exact if_pos own

theorem perform_close {b : Bench} {w : Work} {below : List Work} (c : Catalogue)
    (works : b.works = w :: below) (scope : w.own = false) :
    b.perform c .close = b.closed w below := by
  simp only [perform, works]
  rw [if_neg (by rw [scope]; exact Bool.false_ne_true)]

theorem shape_change (c : Catalogue) (b : Bench) {change : Piece → Piece}
    (shaped : ∀ p, Shaped p (change p)) : Change c b (b.shape change) := by
  cases works : b.works with
  | nil =>
    simp only [shape, works]
    exact .nothing
  | cons w below =>
    cases own : w.own with
    | true =>
      rw [shape_of_own works own]
      exact .reshaped w below _ works own (shaped w.piece)
    | false =>
      simp only [shape, works, own]
      exact .nothing

theorem perform_change (c : Catalogue) (b : Bench) (action : Action) :
    Change c b (b.perform c action) := by
  cases action with
  | begin id span =>
    cases known : c.get? id with
    | none =>
      simp only [perform, known]
      exact .nothing
    | some type =>
      simp only [perform, known]
      exact .begun id type span known
  | setText text => exact shape_change c b fun p => .setText text
  | setAttribute name value => exact shape_change c b fun p => .setAttribute name value
  | discard => exact .discarded
  | attach span =>
    cases works : b.works with
    | nil =>
      simp only [perform, works]
      exact .nothing
    | cons w below =>
      simp only [perform, works]
      split
      · exact .attached w below span works ‹_›
      · exact .nothing
  | keep =>
    cases works : b.works with
    | nil =>
      simp only [perform, works]
      exact .nothing
    | cons w below =>
      simp only [perform, works]
      split
      · exact .opened w below works ‹_›
      · exact .nothing
  | close =>
    cases works : b.works with
    | nil =>
      simp only [perform, works]
      exact .nothing
    | cons w below =>
      simp only [perform, works]
      split
      · exact .nothing
      · exact .closed w below works (Bool.eq_false_iff.2 ‹_›)
  | settle =>
    cases works : b.works with
    | cons w below =>
      simp only [perform, works]
      exact .nothing
    | nil =>
      cases root : b.root with
      | none =>
        simp only [perform, works, root]
        exact .nothing
      | some p =>
        simp only [perform, works, root]
        split
        · exact .nothing
        · exact .settled p works root (Bool.eq_false_iff.2 ‹_›)

/-- Nothing but what is at work is given up. -/
theorem discard_eq (b : Bench) {works : List Work} (same : b.works = works) :
    ∃ lost history, history.seen = b.history.seen ∧
      b.discard works = { b with works := works.dropWhile (·.own), lost, history } := by
  induction works generalizing b with
  | nil => exact ⟨b.lost, b.history, rfl, by rw [discard, List.dropWhile_nil, ← same]⟩
  | cons w below ih =>
    rw [discard, List.dropWhile_cons]
    split
    · obtain ⟨lost, history, seen, given⟩ := ih { b.released w below with lost := _ } rfl
      exact ⟨lost, history, seen.trans (History.seen_release ..), given⟩
    · exact ⟨b.lost, b.history, rfl, by rw [← same]⟩

/-! ### Checks on the bench and on the log -/

theorem check_of_declared {b : Bench} {p : Piece} (declared : b.rules.declares p.tag = true)
    (mode : Mode) (span : Span) (own : Bool) (reported : List String) :
    b.check mode span own p reported =
      ((p.examine mode,
          ((p.sightings b.rules mode own).foldl (takeNote mode span) (reported, b.notes)).1),
        { b with
          registry := b.registry.record p.tag
          history := b.history.saw ((p.sightings b.rules mode own).map (·.mark))
          notes :=
            ((p.sightings b.rules mode own).foldl (takeNote mode span)
              (reported, b.notes)).2 }) := by
  simp only [check, rules, Registry.rules_record]
  rw [if_pos declared]

theorem check_of_undeclared {b : Bench} {p : Piece} (declared : b.rules.declares p.tag = false)
    (mode : Mode) (span : Span) (own : Bool) (reported : List String) :
    b.check mode span own p reported =
      ((p, reported), { b with registry := b.registry.record p.tag }) := by
  simp only [check, rules, Registry.rules_record]
  rw [if_neg (by rw [declared]; exact Bool.false_ne_true)]

theorem report_eq_takeNotes (mode : Mode) (span : Span) (registry : Registry)
    (found : List Sighting) (taken : List String × List Note) :
    report mode span taken.1 ⟨registry, taken.2.map Note.diagnostic⟩
        (found.map Sighting.violation) =
      ((found.foldl (takeNote mode span) taken).1,
        ⟨registry, (found.foldl (takeNote mode span) taken).2.map Note.diagnostic⟩) := by
  induction found generalizing taken with
  | nil => rfl
  | cons x rest ih =>
    rw [List.map_cons, report, List.foldl_cons, ← ih]
    unfold takeNote
    split <;> rfl

theorem violations_sightings (s : Schema) (mode : Mode) (own : Bool) (p : Piece) :
    (p.sightings s mode own).map Sighting.violation =
      (p.spots s false).flatMap (Spot.reported mode p.tag) := by
  rw [Piece.sightings, List.map_flatMap]
  refine List.flatMap_congr fun spot _ => ?_
  rw [Spot.sightings, Spot.reported, List.map_map]
  rfl

/-- A check on the bench is the check of the element on the log. -/
theorem checkElement_log (mode : Mode) (span : Span) (own : Bool) (p : Piece)
    (reported : List String) (b : Bench) :
    checkElement mode span reported p.element b.log =
      (((b.check mode span own p reported).1.1.element, (b.check mode span own p reported).1.2),
        (b.check mode span own p reported).2.log) := by
  have looked : b.log.registry.lookUp p.element.tag =
      (b.registry.validator? p.tag, b.registry.record p.tag) := by
    rw [Piece.element_tag]
    rfl
  unfold checkElement
  simp only [looked]
  rw [Registry.validator?_eq]
  cases declared : b.rules.declares p.tag with
  | false =>
    rw [if_neg Bool.false_ne_true, check_of_undeclared declared]
    rfl
  | true =>
    rw [if_pos rfl, check_of_declared declared]
    simp only [Validator.inspect, Piece.element_tag, Piece.inspect_element]
    rw [← violations_sightings b.registry.rules mode own p,
      show Log.mk (b.registry.record p.tag) b.log.found =
        ⟨b.registry.record p.tag, b.notes.map Note.diagnostic⟩ from rfl,
      report_eq_takeNotes mode span (b.registry.record p.tag) _ (reported, b.notes)]
    rfl

section Checks

variable (mode : Mode) (span : Span) (own : Bool) (p : Piece) (reported : List String) (b : Bench)

/-- A check only looks: what is on the bench stays as it is. -/
theorem check_leaves :
    ∃ history notes, (b.check mode span own p reported).2 =
      { b with registry := b.registry.record p.tag, history, notes } := by
  cases declared : b.rules.declares p.tag
  · exact ⟨b.history, b.notes, by rw [check_of_undeclared declared]⟩
  · exact ⟨_, _, by rw [check_of_declared declared]⟩

@[simp] theorem check_works : (b.check mode span own p reported).2.works = b.works := by
  obtain ⟨history, notes, leaves⟩ := b.check_leaves mode span own p reported
  rw [leaves]

@[simp] theorem check_root : (b.check mode span own p reported).2.root = b.root := by
  obtain ⟨history, notes, leaves⟩ := b.check_leaves mode span own p reported
  rw [leaves]

@[simp] theorem check_lost : (b.check mode span own p reported).2.lost = b.lost := by
  obtain ⟨history, notes, leaves⟩ := b.check_leaves mode span own p reported
  rw [leaves]

@[simp] theorem check_nextSerial :
    (b.check mode span own p reported).2.nextSerial = b.nextSerial := by
  obtain ⟨history, notes, leaves⟩ := b.check_leaves mode span own p reported
  rw [leaves]

@[simp] theorem check_nextScope :
    (b.check mode span own p reported).2.nextScope = b.nextScope := by
  obtain ⟨history, notes, leaves⟩ := b.check_leaves mode span own p reported
  rw [leaves]

@[simp] theorem check_rules : (b.check mode span own p reported).2.rules = b.rules := by
  obtain ⟨history, notes, leaves⟩ := b.check_leaves mode span own p reported
  rw [leaves]
  exact b.registry.rules_record p.tag

theorem check_history_subset :
    b.history.seen ⊆ (b.check mode span own p reported).2.history.seen := by
  cases declared : b.rules.declares p.tag
  · rw [check_of_undeclared declared]
    exact List.Subset.refl _
  · rw [check_of_declared declared]
    exact b.history.seen_subset_saw _

end Checks

theorem place_nil {b : Bench} (closed : b.works = []) (span : Span) (p : Piece) :
    b.place span p = { b with root := some p, lost := b.root.toList ++ b.lost } := by
  obtain ⟨works, root, lost, nextSerial, nextScope, registry, history, notes⟩ := b
  cases closed
  rfl

/-- What comes of a piece at work when it gets a child. -/
def adopt (b : Bench) (span : Span) (w : Work) (p : Piece) : (Piece × List String) × Bench :=
  { b with history := b.history.grow w }.check .tolerant span w.own (w.piece.adopt w.type.order p)
    w.reported

theorem place_on {b : Bench} {w : Work} {below : List Work} (works : b.works = w :: below)
    (span : Span) (p : Piece) :
    b.place span p =
      { (b.adopt span w p).2 with
        works :=
          { w with
            piece := (b.adopt span w p).1.1
            reported := (b.adopt span w p).1.2 } :: below } := by
  obtain ⟨works', root, lost, nextSerial, nextScope, registry, history, notes⟩ := b
  cases works
  rfl

theorem attach_draft (b : Bench) (span : Span) (w : Work) (p : Piece) :
    w.draft.attach span p.element b.log =
      (({ w with
            piece := (b.adopt span w p).1.1
            reported := (b.adopt span w p).1.2 } : Work).draft,
        (b.adopt span w p).2.log) := by
  have checked := checkElement_log .tolerant span w.own (w.piece.adopt w.type.order p) w.reported
    { b with history := b.history.grow w }
  rw [Piece.element_adopt] at checked
  exact congrArg (fun result : (Element × List String) × Log =>
    ((⟨w.type, result.1.1, result.1.2⟩ : Draft), result.2)) checked

/-! ### The rules stay -/

theorem place_rules (b : Bench) (span : Span) (p : Piece) : (b.place span p).rules = b.rules := by
  cases works : b.works with
  | nil => rw [place_nil works]
  | cons w below =>
    rw [place_on works]
    exact check_rules ..

theorem Change.rules {c : Catalogue} {b b' : Bench} (change : Change c b b') :
    b'.rules = b.rules := by
  cases change with
  | nothing => rfl
  | begun => rfl
  | reshaped => rfl
  | attached => exact place_rules ..
  | opened => rfl
  | discarded =>
    obtain ⟨lost, history, -, given⟩ := b.discard_eq rfl
    rw [given]
  | closed => exact (place_rules ..).trans (check_rules ..)
  | settled => exact check_rules ..

theorem performAll_rules (b : Bench) (c : Catalogue) (actions : List Action) :
    (b.performAll c actions).rules = b.rules := by
  induction actions generalizing b with
  | nil => rfl
  | cons action rest ih => exact (ih _).trans (perform_change c b action).rules

end Bench

end ScoreScript
