import ScoreScript.Proofs.Building.Path
import ScoreScript.Proofs.Markup.Escape
import ScoreScript.Proofs.Schema.Phases

/-!
Where violations are. The elements of a tree are listed from the top down, each with the steps to
children that lead to it (`Element.sites`). Validation goes through this list and asks of each
element what the rule for its tag finds in it, whatever is inside its children; the path of a
violation is the steps to its element, and they can be read off it (`readPath?_pathTo`). Main
statement: `Validator.violations_located`.
-/

namespace ScoreScript

/-- An element inside another one, and the tag and the number of a child for each step to it. -/
structure Site where
  steps : List (String × Nat)
  element : Element

namespace Site

/-- The site as seen from the parent. -/
def under (tag : String) (index : Nat) (site : Site) : Site :=
  { site with steps := (tag, index) :: site.steps }

/-- The numbers of the children that lead to the site. -/
def numbers (site : Site) : List Nat :=
  site.steps.map (·.2)

end Site

namespace Element

/-- Where steps lead. Each goes on to the child with its number, which has its tag. -/
def follow? (e : Element) : List (String × Nat) → Option Element
  | [] => some e
  | (tag, index) :: rest =>
    match e.children[index]? with
    | some c => if c.tag = tag then c.follow? rest else none
    | none => none

mutual

/-- The elements of a tree, each before those inside it. -/
def sites : Element → List Site
  | ⟨tag, attributes, children, text, checked, settled⟩ =>
    ⟨[], ⟨tag, attributes, children, text, checked, settled⟩⟩ :: sitesAll 0 children

def sitesAll (index : Nat) : List Element → List Site
  | [] => []
  | c :: rest => c.sites.map (Site.under c.tag index) ++ sitesAll (index + 1) rest

end

theorem sites_eq (e : Element) : e.sites = ⟨[], e⟩ :: sitesAll 0 e.children := by
  cases e
  rw [sites]

theorem mem_sitesAll {index : Nat} {children : List Element} {site : Site} :
    site ∈ sitesAll index children ↔
      ∃ (i : Nat) (c : Element) (inner : Site), children[i]? = some c ∧ inner ∈ c.sites ∧
        site = inner.under c.tag (index + i) := by
  induction children generalizing index with
  | nil => simp [sitesAll]
  | cons c rest ih =>
    rw [sitesAll, List.mem_append, ih, List.mem_map]
    constructor
    · rintro (⟨inner, member, rfl⟩ | ⟨i, d, inner, at_i, member, rfl⟩)
      · exact ⟨0, c, inner, rfl, member, rfl⟩
      · refine ⟨i + 1, d, inner, at_i, member, ?_⟩
        rw [Nat.add_assoc, Nat.add_comm 1]
    · rintro ⟨i, d, inner, at_i, member, rfl⟩
      cases i with
      | zero =>
        cases at_i
        exact .inl ⟨inner, member, rfl⟩
      | succ i =>
        refine .inr ⟨i, d, inner, at_i, member, ?_⟩
        rw [Nat.add_assoc, Nat.add_comm 1]

/-- The sites are where steps lead. -/
theorem mem_sites {e : Element} {site : Site} :
    site ∈ e.sites ↔ e.follow? site.steps = some site.element := by
  induction e using Element.induction generalizing site with
  | step e ih =>
    rw [sites_eq, List.mem_cons, mem_sitesAll]
    obtain ⟨steps, n⟩ := site
    constructor
    · rintro (same | ⟨i, c, inner, at_i, member, same⟩)
      · cases same
        rfl
      · obtain ⟨rfl, rfl⟩ := Site.mk.inj same
        have child := (ih c (List.mem_of_getElem? at_i)).1 member
        simp only [Nat.zero_add, follow?, at_i, if_true, child]
    · intro leads
      cases steps with
      | nil =>
        cases leads
        exact .inl rfl
      | cons step rest =>
        obtain ⟨tag, index⟩ := step
        simp only [follow?] at leads
        split at leads
        · rename_i c at_index
          split at leads
          · rename_i same
            subst same
            refine .inr ⟨index, c, ⟨rest, n⟩, at_index, ?_, ?_⟩
            · exact (ih c (List.mem_of_getElem? at_index)).2 leads
            · rw [Nat.zero_add]
              rfl
          · cases leads
        · cases leads

/-- What comes first in the list is further up, or inside an earlier child. -/
theorem sites_pairwise (e : Element) : e.sites.Pairwise fun a b => a.numbers < b.numbers := by
  induction e using Element.induction with
  | step e ih =>
    have children (index : Nat) (cs : List Element)
        (each : ∀ c ∈ cs, c.sites.Pairwise fun a b => a.numbers < b.numbers) :
        (sitesAll index cs).Pairwise fun a b => a.numbers < b.numbers := by
      induction cs generalizing index with
      | nil => exact List.Pairwise.nil
      | cons c rest ih =>
        obtain ⟨first, others⟩ := List.forall_mem_cons.1 each
        rw [sitesAll, List.pairwise_append, List.pairwise_map]
        refine ⟨first.imp fun less => ?_, ih (index + 1) others, ?_⟩
        · exact List.cons_lt_cons_iff.2 (.inr ⟨rfl, less⟩)
        · rintro a first b later
          obtain ⟨a, -, rfl⟩ := List.mem_map.1 first
          obtain ⟨i, d, b, -, -, rfl⟩ := mem_sitesAll.1 later
          exact List.cons_lt_cons_iff.2 (.inl (by simp only; omega))
    rw [sites_eq, List.pairwise_cons]
    refine ⟨fun site inside => ?_, children 0 e.children ih⟩
    obtain ⟨i, c, inner, -, -, rfl⟩ := mem_sitesAll.1 inside
    exact List.nil_lt_cons _ _

/-- What holds at all sites holds everywhere in the tree. -/
theorem forall_sites_iff {P : Element → Prop} {e : Element} :
    (∀ site ∈ e.sites, P site.element) ↔ e.Everywhere P := by
  induction e using Element.induction with
  | step e ih =>
    rw [sites_eq, List.forall_mem_cons, everywhere_iff]
    refine and_congr_right fun _ => ⟨fun all c member => ?_, fun all site inside => ?_⟩
    · obtain ⟨i, at_i⟩ := List.mem_iff_getElem?.1 member
      exact (ih c member).1 fun inner inside =>
        all (inner.under c.tag (0 + i)) (mem_sitesAll.2 ⟨i, c, inner, at_i, inside, rfl⟩)
    · obtain ⟨i, c, inner, at_i, below, rfl⟩ := mem_sitesAll.1 inside
      have member := List.mem_of_getElem? at_i
      exact (ih c member).2 (all c member) inner below

/-- The tags on the way to a site are tags of elements in the tree. -/
theorem Everywhere.steps {P : String → Prop} {e : Element} (all : e.Everywhere fun n => P n.tag)
    {site : Site} (inside : site ∈ e.sites) : ∀ step ∈ site.steps, P step.1 := by
  induction e using Element.induction generalizing site with
  | step e ih =>
    rw [sites_eq, List.mem_cons, mem_sitesAll] at inside
    rcases inside with rfl | ⟨i, c, inner, at_i, inside, rfl⟩
    · exact List.forall_mem_nil _
    · have member := List.mem_of_getElem? at_i
      have below := (everywhere_iff.1 all).2 c member
      exact List.forall_mem_cons.2 ⟨(everywhere_iff.1 below).1, ih c member below inside⟩

end Element

/-! ### Reading paths -/

/-- A tag without the characters that paths are put together with. -/
def IsStepTag (tag : String) : Prop :=
  '/' ∉ tag.toList ∧ '[' ∉ tag.toList

instance : DecidablePred IsStepTag := fun _ => inferInstanceAs (Decidable (_ ∧ _))

/-- The tag and the number that a step of a path shows. -/
def readStep? (step : List Char) : Option (String × Nat) :=
  match step.splitOn '[' with
  | [tag, index] =>
    let digits := index.dropLast
    if digits.all Char.isDigit ∧ index.getLast? = some ']' then
      some (String.ofList tag, Nat.ofDigitChars 10 digits 0)
    else none
  | _ => none

/-- The tag where a path begins, and its steps. -/
def readPath? (path : String) : Option (String × List (String × Nat)) :=
  match path.toList.splitOn '/' with
  | [] => none
  | start :: steps => (steps.mapM readStep?).map (String.ofList start, ·)

theorem splitOn_steps {start : List Char} {steps : List (List Char)} {c : Char} (first : c ∉ start)
    (others : ∀ step ∈ steps, c ∉ step) :
    (start ++ steps.flatMap (c :: ·)).splitOn c = start :: steps := by
  have joined : start ++ steps.flatMap (c :: ·) = [c].intercalate (start :: steps) := by
    induction steps generalizing start with
    | nil => simp
    | cons step rest ih =>
      obtain ⟨here, later⟩ := List.forall_mem_cons.1 others
      rw [List.intercalate_cons_cons, ← ih here later]
      simp
  rw [joined]
  exact List.splitOn_intercalate c (List.forall_mem_cons.2 ⟨first, others⟩) (List.cons_ne_nil _ _)

theorem not_mem_digits {c : Char} (other : c.isDigit = false) (n : Nat) :
    c ∉ Nat.toDigits 10 n := by
  refine not_mem_toDigits (fun digit => ?_) n
  have all : ∀ d ∈ ['0', '1', '2', '3', '4', '5', '6', '7', '8', '9'], d.isDigit = true :=
    List.all_eq_true.1 (by decide)
  rw [all c digit] at other
  cases other

theorem readStep?_step {tag : String} (plain : '[' ∉ tag.toList) (index : Nat) :
    readStep? (tag.toList ++ '[' :: (Nat.toDigits 10 index ++ [']'])) = some (tag, index) := by
  have bracket : '[' ∉ Nat.toDigits 10 index ++ [']'] := by
    rw [List.mem_append, List.mem_singleton]
    rintro (digit | closing)
    · exact not_mem_digits (by decide) index digit
    · exact absurd closing (by decide)
  have split := splitOn_steps plain (List.forall_mem_singleton.2 bracket)
  rw [List.flatMap_singleton] at split
  have digits : (Nat.toDigits 10 index).all Char.isDigit = true := by
    rw [List.all_eq_true]
    intro c member
    by_contra other
    exact not_mem_digits (eq_false_of_ne_true other) index member
  rw [readStep?, split]
  simp only [List.dropLast_concat, List.getLast?_concat, digits, and_self, if_true,
    String.ofList_toList, Nat.ofDigitChars_toDigits (b := 10) (n := index) (by decide) (by decide)]

/-- The steps can be read off the path that they make. -/
theorem readPath?_pathTo {tag : String} {steps : List (String × Nat)} (start : IsStepTag tag)
    (plain : ∀ step ∈ steps, IsStepTag step.1) :
    readPath? (pathTo tag steps) = some (tag, steps) := by
  let shown (step : String × Nat) : List Char :=
    step.1.toList ++ '[' :: (Nat.toDigits 10 step.2 ++ [']'])
  have path : (pathTo tag steps).toList = tag.toList ++ (steps.map shown).flatMap ('/' :: ·) := by
    rw [toList_pathTo, List.flatMap_map]
    rfl
  have slash : ∀ step ∈ steps.map shown, '/' ∉ step := by
    refine List.forall_mem_map.2 fun step inside => ?_
    have digits := not_mem_digits (c := '/') (by decide) step.2
    simp [shown, (plain step inside).1, digits]
  have read : (steps.map shown).mapM readStep? = some steps := by
    clear path slash
    induction steps with
    | nil => rfl
    | cons step rest ih =>
      obtain ⟨here, later⟩ := List.forall_mem_cons.1 plain
      rw [List.map_cons, List.mapM_cons, ih later, readStep?_step here.2]
      rfl
  rw [readPath?, path, splitOn_steps start.1 slash]
  simp only [read, Option.map_some, String.ofList_toList]

/-! ### Violations -/

/-- What a rule finds in an element with these attributes, this text and children of these tags. -/
def ElementRule.findings (rule : ElementRule) (attributes : Assoc String) (text : Option String)
    (tags : List String) : List Fault :=
  presentFaults rule attributes ++ absentFaults rule attributes ++
    contentFaults text tags rule.content

/-- What the rule for the tag of an element finds in it; nothing without a rule. -/
def Schema.findings (s : Schema) (e : Element) : List Fault :=
  match s.rule? e.tag with
  | some rule => rule.findings e.attributes e.text (e.children.map (·.tag))
  | none => []

namespace Schema

variable (s : Schema)

theorem ownFaults_eq_findings (e : Element) : s.ownFaults e = s.findings e :=
  rfl

/-- The violations of an element at a site, `path` leading to the whole. -/
def located (path : String) (site : Site) : List Violation :=
  (s.findings site.element).map (⟨·, pathTo path site.steps⟩)

theorem located_under (path tag : String) (index : Nat) (site : Site) :
    s.located path (site.under tag index) = s.located s!"{path}/{tag}[{index}]" site :=
  rfl

/-- Violations are listed site by site. -/
theorem violations_sites (path : String) (e : Element) :
    s.violations path e = e.sites.flatMap (s.located path) := by
  induction e using Element.induction generalizing path with
  | step e ih =>
    have children (index : Nat) (cs : List Element)
        (each : ∀ c ∈ cs, ∀ path, s.violations path c = c.sites.flatMap (s.located path)) :
        s.childViolations path index cs = (Element.sitesAll index cs).flatMap (s.located path) := by
      induction cs generalizing index with
      | nil => rfl
      | cons c rest ih =>
        obtain ⟨first, others⟩ := List.forall_mem_cons.1 each
        rw [childViolations, first, ih (index + 1) others, Element.sitesAll, List.flatMap_append,
          List.flatMap_map]
        simp only [located_under, childPath]
    rw [violations_eq, children 0 e.children fun c member => ih c member, Element.sites_eq,
      List.flatMap_cons, ownFaults_eq_findings]
    rfl

end Schema

/-- Validation of a tree goes through its elements from the top down. For each one it reports what
the rule for its tag, if there is one, finds in its attributes, its text and the tags of its
children. The path of a violation can be read as steps to children by tag and number, which lead
from the root to the element; so no two elements share a path. Nothing is reported just in case
every element conforms to its own rule. -/
theorem Validator.violations_located (v : Validator) {e : Element} (root : e.tag = v.root)
    (plain : e.Everywhere fun n => IsStepTag n.tag) :
    v.validate e = e.sites.flatMap (fun site =>
      (v.schema.findings site.element).map (⟨·, pathTo e.tag site.steps⟩)) ∧
    (∀ steps n, ⟨steps, n⟩ ∈ e.sites ↔ e.follow? steps = some n) ∧
    e.sites.Pairwise (fun a b => a.numbers < b.numbers) ∧
    (∀ site ∈ e.sites, readPath? (pathTo e.tag site.steps) = some (e.tag, site.steps)) ∧
    (∀ a ∈ e.sites, ∀ b ∈ e.sites, pathTo e.tag a.steps = pathTo e.tag b.steps → a = b) ∧
    (v.validate e = [] ↔ e.Everywhere fun n => v.schema.findings n = []) := by
  have listed : v.validate e = e.sites.flatMap (v.schema.located e.tag) := by
    rw [validate_of_root root, Schema.violations_sites]
  have read : ∀ site ∈ e.sites, readPath? (pathTo e.tag site.steps) = some (e.tag, site.steps) :=
    fun site inside => readPath?_pathTo (Element.everywhere_iff.1 plain).1 (plain.steps inside)
  refine ⟨listed, fun steps n => Element.mem_sites, e.sites_pairwise, read, ?_, ?_⟩
  · intro a insideA b insideB same
    have readA := read a insideA
    rw [same, read b insideB, Option.some.injEq, Prod.mk.injEq] at readA
    have leadsA := Element.mem_sites.1 insideA
    rw [← readA.2, Element.mem_sites.1 insideB, Option.some.injEq] at leadsA
    cases a
    cases b
    simp_all
  · rw [listed, List.flatMap_eq_nil_iff, ← Element.forall_sites_iff]
    refine forall₂_congr fun site _ => ?_
    exact List.map_eq_nil_iff

namespace Validator

/-- A time signature with a group in it, which the schema does not know. -/
def grouped : Element :=
  { tag := "time", children := [{ tag := "group", children := [redThree] }] }

/-- The group is passed over, but what is in it is looked at. -/
theorem violations_located_grouped :
    grouped.tag = meter.root ∧ grouped.Everywhere (fun n => IsStepTag n.tag) ∧
      meter.validate grouped = [
        ⟨.missingElement "beats", "time"⟩, ⟨.missingElement "beat-type", "time"⟩,
        ⟨.unexpectedElement "group", "time"⟩,
        ⟨.unexpectedAttribute "colour", "time/group[0]/time[0]"⟩,
        ⟨.missingElement "beat-type", "time/group[0]/time[0]"⟩] := by
  have plain : grouped.Everywhere fun n => IsStepTag n.tag :=
    Element.forall_sites_iff.1 (by decide +kernel)
  obtain ⟨listed, -⟩ := violations_located meter (e := grouped) rfl plain
  refine ⟨rfl, plain, ?_⟩
  rw [listed]
  decide +kernel

end Validator

end ScoreScript
