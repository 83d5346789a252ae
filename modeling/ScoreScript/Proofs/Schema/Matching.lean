import Mathlib.Data.List.Forall2
import Mathlib.Data.List.TakeWhile
import ScoreScript.Schema.Validation

/-!
What the steps of a sequence make of children. They take blocks from the front, one step after the
other and each block as long as it can be; what is left then is unexpected, and a block that is too
short is missing something. If nothing is reported, the children are in blocks that fit the steps.
If no tag is for two steps, children that are in such blocks at all are taken in just these, so
that nothing is reported. Main statement: `sequenceFaults_blocks`.
-/

namespace ScoreScript

namespace Particle

/-- A step may take the block: its term accepts all of it, and it is within the bound. -/
structure Takes (p : Particle) (block : List Element) : Prop where
  accepted : ∀ c ∈ block, p.term.accepts c.tag = true
  bounded : ∀ max ∈ p.max, block.length ≤ max

/-- The block is what the step asks for. -/
structure Fits (p : Particle) (block : List Element) : Prop extends p.Takes block where
  enough : p.min ≤ block.length

/-- The block cannot be longer, for the bound is reached or what comes next is not accepted. -/
def EndsBefore (p : Particle) (block others : List Element) : Prop :=
  p.max = some block.length ∨ ∀ c ∈ others.head?, p.term.accepts c.tag = false

/-- What a step reports for the block it took. -/
def shortage (p : Particle) (block : List Element) : List Fault :=
  if block.length < p.min then [.missingElement p.term.text] else []

end Particle

/-- Steps take blocks of children one after the other, each as long as it can be, and leave the
rest. -/
inductive TakenInTurn : List Particle → List (List Element) → (rest : List Element) → Prop where
  | none (rest : List Element) : TakenInTurn [] [] rest
  | step {p : Particle} {block : List Element} {particles : List Particle}
      {blocks : List (List Element)} {rest : List Element} (takes : p.Takes block)
      (ends : p.EndsBefore block (blocks.flatten ++ rest))
      (later : TakenInTurn particles blocks rest) :
      TakenInTurn (p :: particles) (block :: blocks) rest

/-! ### One step -/

namespace Particle

variable (p : Particle) (children : List Element)

theorem block_prefix (tags : List String) : p.block tags <+: tags := by
  unfold block
  cases p.max with
  | none => exact List.takeWhile_prefix _
  | some max => exact (List.take_prefix _ _).trans (List.takeWhile_prefix _)

/-- The children that a step takes. -/
def childBlock : List Element :=
  children.take (p.block (children.map (·.tag))).length

theorem map_tag_childBlock :
    (p.childBlock children).map (·.tag) = p.block (children.map (·.tag)) := by
  rw [childBlock, List.map_take]
  exact (List.prefix_iff_eq_take.1 (p.block_prefix _)).symm

theorem length_childBlock :
    (p.childBlock children).length = (p.block (children.map (·.tag))).length := by
  rw [← p.map_tag_childBlock children, List.length_map]

theorem takes_childBlock : p.Takes (p.childBlock children) := by
  constructor
  · intro c member
    have tag : c.tag ∈ p.block (children.map (·.tag)) := by
      rw [← p.map_tag_childBlock children]
      exact List.mem_map_of_mem member
    have run : c.tag ∈ (children.map (·.tag)).takeWhile p.term.accepts := by
      unfold block at tag
      cases bound : p.max with
      | none => rwa [bound] at tag
      | some max =>
        rw [bound] at tag
        exact List.mem_of_mem_take tag
    exact List.mem_takeWhile_imp run
  · intro max bound
    rw [length_childBlock, block, Option.mem_def.1 bound]
    exact List.length_take_le _ _

theorem endsBefore_childBlock :
    p.EndsBefore (p.childBlock children)
      (children.drop (p.block (children.map (·.tag))).length) := by
  have next (stop : p.block (children.map (·.tag)) =
      (children.map (·.tag)).takeWhile p.term.accepts) :
      ∀ c ∈ (children.drop (p.block (children.map (·.tag))).length).head?,
        p.term.accepts c.tag = false := by
    intro c first
    have left := congrArg (List.drop (p.block (children.map (·.tag))).length)
      (List.takeWhile_append_dropWhile (p := p.term.accepts) (l := children.map (·.tag)))
    rw [stop, List.drop_left, ← stop, ← List.map_drop] at left
    have stopped := List.head?_dropWhile_not p.term.accepts (children.map (·.tag))
    rw [left, List.head?_map, Option.mem_def.1 first] at stopped
    simpa using stopped
  cases bound : p.max with
  | none => exact .inr (next (by rw [block, bound]))
  | some max =>
    by_cases reached : max ≤ ((children.map (·.tag)).takeWhile p.term.accepts).length
    · refine .inl ?_
      rw [length_childBlock, block, bound, List.length_take, Nat.min_eq_left reached]
    · refine .inr (next ?_)
      rw [block, bound]
      exact List.take_of_length_le (Nat.le_of_not_le reached)

end Particle

/-- The faults of a sequence, by the children that its first step takes. -/
theorem sequenceFaults_cons (p : Particle) (particles : List Particle) (children : List Element) :
    sequenceFaults (p :: particles) (children.map (·.tag)) =
      p.shortage (p.childBlock children) ++
        sequenceFaults particles
          ((children.drop (p.block (children.map (·.tag))).length).map (·.tag)) := by
  rw [sequenceFaults, Particle.shortage, p.length_childBlock, List.map_drop]

/-! ### All steps -/

theorem exists_takenInTurn (particles : List Particle) (children : List Element) :
    ∃ blocks rest, TakenInTurn particles blocks rest ∧ children = blocks.flatten ++ rest ∧
      sequenceFaults particles (children.map (·.tag)) =
        (particles.zip blocks).flatMap (fun step => step.1.shortage step.2) ++
          rest.map fun c => .unexpectedElement c.tag := by
  induction particles generalizing children with
  | nil =>
    refine ⟨[], children, .none children, rfl, ?_⟩
    rw [sequenceFaults, List.map_map]
    rfl
  | cons p particles ih =>
    obtain ⟨blocks, rest, taken, split, faults⟩ :=
      ih (children.drop (p.block (children.map (·.tag))).length)
    have whole : children = p.childBlock children ++ (blocks.flatten ++ rest) := by
      rw [← split]
      exact (List.take_append_drop _ children).symm
    refine ⟨p.childBlock children :: blocks, rest, ?_, ?_, ?_⟩
    · refine .step (p.takes_childBlock children) ?_ taken
      rw [← split]
      exact p.endsBefore_childBlock children
    · rw [List.flatten_cons, List.append_assoc]
      exact whole
    · rw [sequenceFaults_cons, faults, List.zip_cons_cons, List.flatMap_cons, List.append_assoc]

/-- Blocks that are long enough fit. -/
theorem TakenInTurn.fits {particles : List Particle} {blocks : List (List Element)}
    {rest : List Element} (taken : TakenInTurn particles blocks rest)
    (enough : (particles.zip blocks).flatMap (fun step => step.1.shortage step.2) = []) :
    List.Forall₂ Particle.Fits particles blocks := by
  induction taken with
  | none rest => exact .nil
  | @step p block particles blocks rest takes ends later ih =>
    rw [List.zip_cons_cons, List.flatMap_cons, List.append_eq_nil_iff] at enough
    obtain ⟨here, others⟩ := enough
    refine .cons ⟨takes, Nat.le_of_not_lt fun short => ?_⟩ (ih others)
    rw [Particle.shortage, if_pos short] at here
    cases here

/-- A child in fitting blocks is accepted by one of the steps. -/
theorem exists_accepts_of_mem {particles : List Particle} {blocks : List (List Element)}
    (fit : List.Forall₂ Particle.Fits particles blocks) {c : Element}
    (inside : c ∈ blocks.flatten) :
    ∃ p ∈ particles, p.term.accepts c.tag = true := by
  induction fit with
  | nil => cases inside
  | @cons p block particles blocks fits _ ih =>
    rw [List.flatten_cons, List.mem_append] at inside
    rcases inside with here | later
    · exact ⟨p, List.mem_cons_self, fits.accepted c here⟩
    · obtain ⟨q, member, accepts⟩ := ih later
      exact ⟨q, List.mem_cons_of_mem _ member, accepts⟩

/-- A step takes a fitting block as it is if what comes next is for other steps. -/
theorem Particle.Fits.block_eq {p : Particle} {block others : List Element} (fits : p.Fits block)
    (stop : ∀ c ∈ others.head?, p.term.accepts c.tag = false) :
    p.block ((block ++ others).map (·.tag)) = block.map (·.tag) := by
  have accepted : ∀ tag ∈ block.map (·.tag), p.term.accepts tag = true :=
    List.forall_mem_map.2 fits.accepted
  have run : ((block ++ others).map (·.tag)).takeWhile p.term.accepts = block.map (·.tag) := by
    rw [List.map_append, List.takeWhile_append_of_pos accepted]
    cases others with
    | nil => rw [List.map_nil, List.takeWhile_nil, List.append_nil]
    | cons c others =>
      rw [List.map_cons, List.takeWhile_cons_of_neg (by simp [stop c rfl]), List.append_nil]
  unfold Particle.block
  rw [run]
  cases bound : p.max with
  | none => rfl
  | some max =>
    refine List.take_of_length_le ?_
    rw [List.length_map]
    exact fits.bounded max bound

/-- If no tag is for two steps, the blocks that fit are the blocks that are taken. -/
theorem sequenceFaults_of_fits {particles : List Particle} {blocks : List (List Element)}
    (apart : particles.Pairwise fun p q => p.term.tags.Disjoint q.term.tags)
    (fit : List.Forall₂ Particle.Fits particles blocks) :
    sequenceFaults particles (blocks.flatten.map (·.tag)) = [] := by
  induction fit with
  | nil => rfl
  | @cons p block particles blocks fits fit ih =>
    obtain ⟨first, others⟩ := List.pairwise_cons.1 apart
    have stop : ∀ c ∈ blocks.flatten.head?, p.term.accepts c.tag = false := by
      intro c next
      obtain ⟨q, member, accepts⟩ := exists_accepts_of_mem fit (List.mem_of_mem_head? next)
      rw [← Bool.not_eq_true]
      intro accepted
      exact first q member (List.contains_iff_mem.1 accepted) (List.contains_iff_mem.1 accepts)
    rw [List.flatten_cons, sequenceFaults, fits.block_eq stop, List.length_map,
      if_neg (Nat.not_lt.2 fits.enough), List.nil_append, List.map_append,
      List.drop_left' (List.length_map _)]
    exact ih others

/-- The steps of a sequence take consecutive blocks from the front of the children, each as long
as it can be. Each child that is left is reported as unexpected, and for each block that is too
short something is reported as missing. If nothing is reported, the children are in blocks that fit
the steps; and if no tag is for two steps, nothing is reported for children in such blocks. -/
theorem sequenceFaults_blocks (particles : List Particle) (children : List Element) :
    (∃ blocks rest, TakenInTurn particles blocks rest ∧ children = blocks.flatten ++ rest ∧
      sequenceFaults particles (children.map (·.tag)) =
        (particles.zip blocks).flatMap (fun step => step.1.shortage step.2) ++
          rest.map fun c => .unexpectedElement c.tag) ∧
    (sequenceFaults particles (children.map (·.tag)) = [] →
      ∃ blocks, children = blocks.flatten ∧ List.Forall₂ Particle.Fits particles blocks) ∧
    ((particles.Pairwise fun p q => p.term.tags.Disjoint q.term.tags) →
      ∀ blocks, children = blocks.flatten → List.Forall₂ Particle.Fits particles blocks →
        sequenceFaults particles (children.map (·.tag)) = []) := by
  obtain ⟨blocks, rest, taken, split, faults⟩ := exists_takenInTurn particles children
  refine ⟨⟨blocks, rest, taken, split, faults⟩, fun clean => ?_, ?_⟩
  · rw [clean] at faults
    obtain ⟨enough, nothing⟩ := List.append_eq_nil_iff.1 faults.symm
    have none : rest = [] := List.map_eq_nil_iff.1 nothing
    exact ⟨blocks, by rw [split, none, List.append_nil], taken.fits enough⟩
  · rintro apart blocks rfl fit
    exact sequenceFaults_of_fits apart fit

/-- Where a tag is for two steps, the first may take what the second needs. -/
example : sequenceFaults [⟨.element "note", 0, none⟩, ⟨.element "note", 1, some 1⟩] ["note"] =
    [.missingElement "note"] := by
  decide

end ScoreScript
