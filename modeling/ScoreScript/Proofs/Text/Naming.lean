import Mathlib.Data.List.TakeWhile
import ScoreScript.Naming
import ScoreScript.Proofs.Text.Utf8

/-!
Names of types, tags and fields. Names of types have no joints in them: capitalising drops those of
a tag, and no case form of another character is one.

Words of ASCII letters and digits can be joined by capitals, by hyphens or by underscores, and a
name of the one spelling is found again in each of the others. So types that are spelled in such
words never share a tag (`names_round_trip`).
-/

namespace ScoreScript

/-- No character has the one with this number as its case form, or in it. -/
def Unreached (one : List (Stretch × Int)) (many : List (Nat × List Nat)) (n : Nat) : Prop :=
  (∀ entry ∈ many, n ∉ entry.2) ∧
    ∀ entry ∈ one, entry.1.contains ((n : Int) - entry.2).toNat = false

instance (one : List (Stretch × Int)) (many : List (Nat × List Nat)) (n : Nat) :
    Decidable (Unreached one many n) :=
  inferInstanceAs (Decidable (_ ∧ _))

theorem eq_of_toNat_ofNat {m n : Nat} (positive : 0 < n) (h : (Char.ofNat m).toNat = n) :
    m = n := by
  by_cases valid : m.isValidChar
  · rw [Char.ofNat, dif_pos valid] at h
    exact h
  · -- what is no character is replaced by number 0
    rw [Char.ofNat, dif_neg valid] at h
    exact absurd h (Nat.ne_of_lt positive)

theorem toNat_ne_of_mem_caseForm {one : List (Stretch × Int)} {many : List (Nat × List Nat)}
    {n : Nat} (positive : 0 < n) (unreached : Unreached one many n) {c d : Char}
    (other : c.toNat ≠ n) (member : d ∈ caseForm one many c) : d.toNat ≠ n := by
  unfold caseForm at member
  split at member
  · -- several characters
    rename_i entry form found
    obtain ⟨m, inside, rfl⟩ := List.mem_map.1 member
    intro same
    rw [eq_of_toNat_ofNat positive same] at inside
    exact unreached.1 _ (List.mem_of_find?_eq_some found) inside
  · split at member
    · -- a character some distance away
      rename_i entry distance found
      rw [List.mem_singleton.1 member]
      intro same
      have reached : ((n : Int) - distance).toNat = c.toNat := by
        have := eq_of_toNat_ofNat positive same
        omega
      have apart := unreached.2 _ (List.mem_of_find?_eq_some found)
      have hit := List.find?_some found
      rw [reached] at apart
      rw [apart] at hit
      cases hit
    · rwa [List.mem_singleton.1 member]

namespace Naming

theorem isJoint_eq_true_iff {c : Char} : isJoint c = true ↔ c.toNat = 45 ∨ c.toNat = 95 := by
  rw [isJoint, Bool.or_eq_true, beq_iff_eq, beq_iff_eq, ← Char.toNat_inj, ← Char.toNat_inj]
  rfl

theorem isJoint_caseForm {one : List (Stretch × Int)} {many : List (Nat × List Nat)}
    (hyphen : Unreached one many 45) (underscore : Unreached one many 95) {c d : Char}
    (plain : isJoint c = false) (member : d ∈ caseForm one many c) : isJoint d = false := by
  rw [← Bool.not_eq_true, isJoint_eq_true_iff, not_or] at plain ⊢
  exact ⟨toNat_ne_of_mem_caseForm (by decide) hyphen plain.1 member,
    toNat_ne_of_mem_caseForm (by decide) underscore plain.2 member⟩

theorem isJoint_ascii {c : Char} (ascii : c.toNat < 128) (plain : isJoint c = false) :
    isJoint c.toUpper = false ∧ isJoint c.toLower = false := by
  have all : ∀ n < 128, isJoint (Char.ofNat n) = false →
      isJoint (Char.ofNat n).toUpper = false ∧ isJoint (Char.ofNat n).toLower = false := by
    decide
  rw [← Char.ofNat_toNat c] at plain ⊢
  exact all c.toNat ascii plain

theorem isJoint_upperForm {c d : Char} (plain : isJoint c = false) (member : d ∈ upperForm c) :
    isJoint d = false := by
  unfold upperForm at member
  split at member
  · rw [List.mem_singleton.1 member]
    exact (isJoint_ascii ‹_› plain).1
  · exact isJoint_caseForm (by decide +kernel) (by decide +kernel) plain member

theorem isJoint_lowerForm {c d : Char} (plain : isJoint c = false) (member : d ∈ lowerForm c) :
    isJoint d = false := by
  unfold lowerForm at member
  split at member
  · rw [List.mem_singleton.1 member]
    exact (isJoint_ascii ‹_› plain).2
  · exact isJoint_caseForm (by decide +kernel) (by decide +kernel) plain member

theorem isJoint_capitalise (cs : List Char) :
    ∀ first, ∀ d ∈ capitalise first cs, isJoint d = false := by
  induction cs with
  | nil => exact fun _ _ member => nomatch member
  | cons c rest ih =>
    intro first d member
    rw [capitalise] at member
    cases joint : isJoint c with
    | true =>
      rw [if_pos joint] at member
      exact ih true d member
    | false =>
      rw [if_neg (by simp [joint]), List.mem_append] at member
      rcases member with here | later
      · cases first with
        | true => exact isJoint_upperForm joint here
        | false => exact isJoint_lowerForm joint here
      · exact ih false d later

theorem isJoint_typeName (tag : String) {c : Char} (member : c ∈ (typeName tag).toList) :
    isJoint c = false := by
  rw [typeName, String.toList_ofList] at member
  exact isJoint_capitalise tag.toList true c member

/-! ### Words -/

/-- What may follow the first letter of a word: a small letter of ASCII or a digit. -/
def isInner (c : Char) : Bool :=
  c.isLower || c.isDigit

/-- A word whose first letter is as `begins` says. -/
def IsWord (begins : Char → Bool) : List Char → Prop
  | [] => False
  | c :: rest => begins c = true ∧ ∀ d ∈ rest, isInner d = true

instance (begins : Char → Bool) : DecidablePred (IsWord begins)
  | [] => .isFalse id
  -- By name: the instance that is found runs over all characters, not over those of the word.
  | _ :: rest => @instDecidableAnd _ _ _ (List.decidableBAll (isInner · = true) rest)

/-- A name of one or more words with a joint between them. -/
def IsJoined (begins : Char → Bool) (joint : List Char) (name : String) : Prop :=
  ∃ words : List (List Char), words ≠ [] ∧ (∀ word ∈ words, IsWord begins word) ∧
    name = String.ofList (joint.intercalate words)

/-- `work-title` -/
def IsTag : String → Prop :=
  IsJoined Char.isLower ['-']

/-- `WorkTitle` -/
def IsTypeName : String → Prop :=
  IsJoined Char.isUpper []

/-- `work_title` -/
def IsField : String → Prop :=
  IsJoined Char.isLower ['_']

/-- A name after its namespace, where there is one. -/
def prefixed (namespace? : Option String) (name : String) : String :=
  match namespace? with
  | some ns => ns ++ ":" ++ name
  | none => name

/-! ### Characters -/

theorem toNat_of_isLower {c : Char} (lower : c.isLower = true) : c.toNat < 128 := by
  have most : c.val ≤ 'z'.val := of_decide_eq_true (Bool.and_eq_true_iff.1 lower).2
  exact Nat.lt_of_le_of_lt (UInt32.le_iff_toNat_le.1 most) (by decide)

theorem toNat_of_isUpper {c : Char} (upper : c.isUpper = true) : c.toNat < 128 := by
  have most : c.val ≤ 'Z'.val := (of_decide_eq_true upper).2
  exact Nat.lt_of_le_of_lt (UInt32.le_iff_toNat_le.1 most) (by decide)

theorem toNat_of_isInner {c : Char} (inner : isInner c = true) : c.toNat < 128 := by
  simp only [isInner, Bool.or_eq_true, Char.isDigit, Bool.and_eq_true, decide_eq_true_eq]
    at inner
  rcases inner with lower | digit
  · exact toNat_of_isLower lower
  · exact Nat.lt_of_le_of_lt (UInt32.le_iff_toNat_le.1 digit.2) (by decide)

theorem isInner_of_isLower {c : Char} (lower : c.isLower = true) : isInner c = true := by
  rw [isInner, lower, Bool.true_or]

/-- Inside a word a character is its own small form, and no joint, capital or colon. -/
theorem inner_spec {c : Char} (inner : isInner c = true) :
    c.toLower = c ∧ c.isUpper = false ∧ isJoint c = false ∧ c ≠ '-' ∧ c ≠ '_' ∧ c ≠ ':' :=
  of_ascii (P := fun c => isInner c = true → c.toLower = c ∧ c.isUpper = false ∧
      isJoint c = false ∧ c ≠ '-' ∧ c ≠ '_' ∧ c ≠ ':')
    (by decide +kernel) (toNat_of_isInner inner) inner

theorem lower_spec {c : Char} (lower : c.isLower = true) :
    c.toUpper.isUpper = true ∧ c.toUpper.toLower = c :=
  of_ascii (P := fun c => c.isLower = true → c.toUpper.isUpper = true ∧ c.toUpper.toLower = c)
    (by decide +kernel) (toNat_of_isLower lower) lower

theorem upper_spec {c : Char} (upper : c.isUpper = true) :
    c.toLower.isLower = true ∧ c.toLower.toUpper = c ∧ isJoint c = false ∧ c ≠ '_' :=
  of_ascii (P := fun c => c.isUpper = true → c.toLower.isLower = true ∧ c.toLower.toUpper = c ∧
      isJoint c = false ∧ c ≠ '_')
    (by decide +kernel) (toNat_of_isUpper upper) upper

theorem lowerForm_ascii {c : Char} (ascii : c.toNat < 128) : lowerForm c = [c.toLower] :=
  if_pos ascii

theorem upperForm_ascii {c : Char} (ascii : c.toNat < 128) : upperForm c = [c.toUpper] :=
  if_pos ascii

theorem isUpper_ascii {c : Char} (ascii : c.toNat < 128) : isUpper c = c.isUpper :=
  if_pos ascii

/-! ### Words -/

/-- A word with its first letter in the form of the other case. -/
def recased (form : Char → Char) : List Char → List Char
  | [] => []
  | c :: rest => form c :: rest

theorem IsWord.toLower {word : List Char} (h : IsWord Char.isUpper word) :
    IsWord Char.isLower (recased Char.toLower word) := by
  cases word with
  | nil => exact h
  | cons c rest => exact ⟨(upper_spec h.1).1, h.2⟩

theorem IsWord.toUpper {word : List Char} (h : IsWord Char.isLower word) :
    IsWord Char.isUpper (recased Char.toUpper word) := by
  cases word with
  | nil => exact h
  | cons c rest => exact ⟨(lower_spec h.1).1, h.2⟩

theorem IsWord.toUpper_toLower {word : List Char} (h : IsWord Char.isUpper word) :
    recased Char.toUpper (recased Char.toLower word) = word := by
  cases word with
  | nil => rfl
  | cons c rest => rw [recased, recased, (upper_spec h.1).2.1]

theorem IsWord.toLower_toUpper {word : List Char} (h : IsWord Char.isLower word) :
    recased Char.toLower (recased Char.toUpper word) = word := by
  cases word with
  | nil => rfl
  | cons c rest => rw [recased, recased, (lower_spec h.1).2]

theorem IsWord.isInner {word : List Char} (h : IsWord Char.isLower word) :
    ∀ c ∈ word, isInner c = true := by
  cases word with
  | nil => exact fun _ member => nomatch member
  | cons first rest =>
    intro c member
    rcases List.mem_cons.1 member with rfl | later
    · exact isInner_of_isLower h.1
    · exact h.2 c later

/-! ### From types to tags -/

theorem hyphenate_inner {cs : List Char} (inner : ∀ c ∈ cs, isInner c = true)
    (last : Option Char) (rest : List Char) :
    hyphenate last (cs ++ rest) = cs ++ hyphenate (cs.getLast?.or last) rest := by
  induction cs generalizing last with
  | nil => rfl
  | cons c cs ih =>
    have here := inner c List.mem_cons_self
    obtain ⟨-, small, -, -, noUnderscore, -⟩ := inner_spec here
    rw [List.cons_append, hyphenate, if_neg noUnderscore,
      isUpper_ascii (toNat_of_isInner here), small, if_neg Bool.false_ne_true,
      ih fun d member => inner d (List.mem_cons_of_mem c member), List.cons_append]
    congr 3
    cases cs with
    | nil => rfl
    | cons d cs => rw [List.getLast?_cons_cons, List.getLast?_cons, Option.some_or, Option.some_or]

/-- A capital begins a word, which a hyphen parts from what stands before it. -/
theorem hyphenate_upper {c : Char} (upper : c.isUpper = true) (last : Option Char)
    (rest : List Char) :
    hyphenate last (c :: rest) =
      (if last = none ∨ last = some '-' then [] else ['-']) ++
        c.toLower :: hyphenate (some c.toLower) rest := by
  have ascii := toNat_of_isUpper upper
  rw [hyphenate, if_neg (upper_spec upper).2.2.2, isUpper_ascii ascii, upper, if_pos rfl,
    lowerForm_ascii ascii]
  split <;> rfl

theorem hyphenate_word {word : List Char} (h : IsWord Char.isUpper word) (last : Option Char)
    (rest : List Char) :
    ∃ c, isInner c = true ∧ hyphenate last (word ++ rest) =
      (if last = none ∨ last = some '-' then [] else ['-']) ++ recased Char.toLower word ++
        hyphenate (some c) rest := by
  cases word with
  | nil => exact absurd h id
  | cons first tail =>
    have written := hyphenate_upper h.1 last (tail ++ rest)
    rw [hyphenate_inner h.2] at written
    cases found : tail.getLast? with
    | none =>
      refine ⟨first.toLower, isInner_of_isLower (upper_spec h.1).1, ?_⟩
      rw [List.cons_append, written, found, List.append_assoc]
      rfl
    | some d =>
      refine ⟨d, h.2 d (List.mem_of_getLast? found), ?_⟩
      rw [List.cons_append, written, found, List.append_assoc]
      rfl

theorem hyphenate_words {words : List (List Char)}
    (all : ∀ word ∈ words, IsWord Char.isUpper word) {c : Char} (inner : isInner c = true) :
    hyphenate (some c) words.flatten =
      (words.map fun word => '-' :: recased Char.toLower word).flatten := by
  induction words generalizing c with
  | nil => rfl
  | cons word words ih =>
    obtain ⟨d, next, written⟩ :=
      hyphenate_word (all word List.mem_cons_self) (some c) words.flatten
    rw [List.flatten_cons, written, if_neg (by simp [(inner_spec inner).2.2.2.1]),
      ih (fun other member => all other (List.mem_cons_of_mem word member)) next]
    rfl

theorem intercalate_cons (joint word : List Char) (words : List (List Char)) :
    joint.intercalate (word :: words) = word ++ (words.map (joint ++ ·)).flatten := by
  induction words generalizing word with
  | nil => simp
  | cons next words ih => rw [List.intercalate_cons_cons, ih]; simp

theorem hyphenate_typeName {words : List (List Char)}
    (all : ∀ word ∈ words, IsWord Char.isUpper word) :
    hyphenate none words.flatten =
      ['-'].intercalate (words.map (recased Char.toLower)) := by
  cases words with
  | nil => rfl
  | cons word words =>
    obtain ⟨c, inner, written⟩ := hyphenate_word (all word List.mem_cons_self) none words.flatten
    rw [List.flatten_cons, written, List.map_cons, intercalate_cons, if_pos (.inl rfl),
      hyphenate_words (fun other member => all other (List.mem_cons_of_mem word member)) inner,
      List.map_map]
    rfl

/-! ### From tags to types -/

theorem capitalise_inner {cs : List Char} (inner : ∀ c ∈ cs, isInner c = true)
    (rest : List Char) : capitalise false (cs ++ rest) = cs ++ capitalise false rest := by
  induction cs with
  | nil => rfl
  | cons c cs ih =>
    have here := inner c List.mem_cons_self
    obtain ⟨small, -, noJoint, -⟩ := inner_spec here
    rw [List.cons_append, capitalise, noJoint, if_neg Bool.false_ne_true,
      if_neg Bool.false_ne_true, lowerForm_ascii (toNat_of_isInner here), small,
      ih fun d member => inner d (List.mem_cons_of_mem c member)]
    rfl

theorem capitalise_word {word : List Char} (h : IsWord Char.isLower word) (rest : List Char) :
    capitalise true (word ++ rest) = recased Char.toUpper word ++ capitalise false rest := by
  cases word with
  | nil => exact absurd h id
  | cons first tail =>
    obtain ⟨-, -, noJoint, -⟩ := inner_spec (isInner_of_isLower h.1)
    rw [List.cons_append, capitalise, noJoint, if_neg Bool.false_ne_true, if_pos rfl,
      upperForm_ascii (toNat_of_isLower h.1), capitalise_inner h.2]
    rfl

theorem capitalise_words {words : List (List Char)}
    (all : ∀ word ∈ words, IsWord Char.isLower word) :
    capitalise false (words.map (['-'] ++ ·)).flatten =
      (words.map (recased Char.toUpper)).flatten := by
  induction words with
  | nil => rfl
  | cons word words ih =>
    rw [List.map_cons, List.flatten_cons, List.singleton_append, List.cons_append, capitalise,
      if_pos (by decide), capitalise_word (all word List.mem_cons_self),
      ih fun other member => all other (List.mem_cons_of_mem word member)]
    rfl

theorem capitalise_tag {words : List (List Char)}
    (all : ∀ word ∈ words, IsWord Char.isLower word) :
    capitalise true (['-'].intercalate words) = (words.map (recased Char.toUpper)).flatten := by
  cases words with
  | nil => rfl
  | cons word words =>
    rw [intercalate_cons, capitalise_word (all word List.mem_cons_self),
      capitalise_words fun other member => all other (List.mem_cons_of_mem word member)]
    rfl

theorem tagName_typeName {tag : String} (h : IsTag tag) : tagName (typeName tag) = tag := by
  obtain ⟨words, -, all, rfl⟩ := h
  have capitals : ∀ word ∈ words.map (recased Char.toUpper), IsWord Char.isUpper word := by
    intro word member
    obtain ⟨small, inside, rfl⟩ := List.mem_map.1 member
    exact (all small inside).toUpper
  have back : (words.map (recased Char.toUpper)).map (recased Char.toLower) = words := by
    rw [List.map_map]
    exact (List.map_congr_left fun word member => (all word member).toLower_toUpper).trans
      (List.map_id words)
  rw [tagName, typeName, String.toList_ofList, String.toList_ofList, capitalise_tag all,
    hyphenate_typeName capitals, back]

theorem typeName_tagName {name : String} (h : IsTypeName name) :
    typeName (tagName name) = name := by
  obtain ⟨words, -, all, rfl⟩ := h
  have smalls : ∀ word ∈ words.map (recased Char.toLower), IsWord Char.isLower word := by
    intro word member
    obtain ⟨capital, inside, rfl⟩ := List.mem_map.1 member
    exact (all capital inside).toLower
  have back : (words.map (recased Char.toLower)).map (recased Char.toUpper) = words := by
    rw [List.map_map]
    exact (List.map_congr_left fun word member => (all word member).toUpper_toLower).trans
      (List.map_id words)
  have apart : ([] : List Char).intercalate words = words.flatten := by
    cases words with
    | nil => rfl
    | cons word words => rw [intercalate_cons]; simp
  rw [apart, tagName, typeName, String.toList_ofList, String.toList_ofList,
    hyphenate_typeName all, capitalise_tag smalls, back]

/-! ### Fields and attributes -/

/-- A character of a tag or of a field. -/
def isFlat (c : Char) : Bool :=
  isInner c || isJoint c

theorem flat_spec {c : Char} (flat : isFlat c = true) :
    c.toNat < 128 ∧ c.toLower = c ∧ c.isUpper = false ∧ c ≠ ':' := by
  rcases Bool.or_eq_true_iff.1 flat with inner | joint
  · obtain ⟨small, noCapital, -, -, -, noColon⟩ := inner_spec inner
    exact ⟨toNat_of_isInner inner, small, noCapital, noColon⟩
  · rcases Bool.or_eq_true_iff.1 joint with hyphen | underscore
    · rw [beq_iff_eq.1 hyphen]
      decide
    · rw [beq_iff_eq.1 underscore]
      decide

theorem mem_intercalate {joint : Char} {words : List (List Char)}
    (all : ∀ word ∈ words, IsWord Char.isLower word) {c : Char}
    (member : c ∈ [joint].intercalate words) : isInner c = true ∨ c = joint := by
  cases words with
  | nil => cases member
  | cons word words =>
    rw [intercalate_cons, List.mem_append] at member
    rcases member with first | later
    · exact .inl ((all word List.mem_cons_self).isInner c first)
    · obtain ⟨part, inside, here⟩ := List.mem_flatten.1 later
      obtain ⟨other, among, rfl⟩ := List.mem_map.1 inside
      rcases List.mem_cons.1 here with rfl | there
      · exact .inr rfl
      · exact .inl ((all other (List.mem_cons_of_mem word among)).isInner c there)

/-- One joint written in the place of another. -/
def rejoined (one other : Char) (cs : List Char) : List Char :=
  cs.map fun c => if c = one then other else c

theorem isFlat_rejoined (one : Char) {other : Char} (joint : isFlat other = true)
    {cs : List Char} (flat : ∀ c ∈ cs, isFlat c = true) :
    ∀ c ∈ rejoined one other cs, isFlat c = true := by
  intro c member
  obtain ⟨d, inside, rfl⟩ := List.mem_map.1 member
  split
  · exact joint
  · exact flat d inside

/-- Where the other joint is absent, one joint is found again. -/
theorem rejoined_rejoined (one : Char) {other : Char} {cs : List Char} (absent : other ∉ cs) :
    rejoined other one (rejoined one other cs) = cs := by
  rw [rejoined, rejoined, List.map_map]
  refine (List.map_congr_left fun c member => ?_).trans (List.map_id cs)
  have unlike : c ≠ other := fun same => absent (same ▸ member)
  by_cases same : c = one
  · simp [same]
  · simp [same, unlike]

theorem hyphenate_flat {cs : List Char} (flat : ∀ c ∈ cs, isFlat c = true)
    (last : Option Char) :
    hyphenate last cs = rejoined '_' '-' cs := by
  induction cs generalizing last with
  | nil => rfl
  | cons c cs ih =>
    obtain ⟨ascii, -, noCapital, -⟩ := flat_spec (flat c List.mem_cons_self)
    have later := ih fun d member => flat d (List.mem_cons_of_mem c member)
    rw [hyphenate, isUpper_ascii ascii, noCapital, if_neg Bool.false_ne_true, later, later,
      rejoined, rejoined, List.map_cons]
    split <;> rfl

theorem lowerAfter_flat {cs : List Char} (flat : ∀ c ∈ cs, isFlat c = true)
    (before : List Char) : lowerAfter before cs = cs := by
  induction cs generalizing before with
  | nil => rfl
  | cons c cs ih =>
    obtain ⟨ascii, small, -⟩ := flat_spec (flat c List.mem_cons_self)
    have noSigma : c ≠ 'Σ' := by
      rintro rfl
      exact absurd ascii (by decide)
    rw [lowerAfter, lowerForm_ascii ascii, small,
      ih fun d member => flat d (List.mem_cons_of_mem c member)]
    · rfl
    · exact noSigma

theorem localPart_prefixed (namespace? : Option String) {name : String}
    (plain : ':' ∉ name.toList) : localPart (prefixed namespace? name).toList = name.toList := by
  have noStop : ∀ c ∈ name.toList.reverse, decide (c ≠ ':') = true := by
    intro c member
    refine decide_eq_true ?_
    rintro rfl
    exact plain (List.mem_reverse.1 member)
  cases namespace? with
  | none =>
    rw [prefixed, localPart, List.takeWhile_eq_self_iff.2 noStop, List.reverse_reverse]
  | some ns =>
    have written : (ns ++ ":" ++ name).toList = ns.toList ++ ':' :: name.toList := by simp
    rw [prefixed, localPart, written, List.reverse_append, List.reverse_cons, List.append_assoc,
      List.takeWhile_append_of_pos noStop]
    simp

theorem fieldName_prefixed (namespace? : Option String) {name : String}
    (flat : ∀ c ∈ name.toList, isFlat c = true) :
    fieldName (prefixed namespace? name) =
      String.ofList (rejoined '-' '_' name.toList) := by
  have plain : ':' ∉ name.toList := fun member => (flat_spec (flat _ member)).2.2.2 rfl
  have lower := lowerAfter_flat (isFlat_rejoined '-' (by decide : isFlat '_' = true) flat) []
  rw [rejoined] at lower
  rw [fieldName, localPart_prefixed namespace? plain, lowerText, String.toList_ofList, lower,
    rejoined]

theorem attributeName_eq (field : String) (namespace? : Option String) :
    attributeName field namespace? =
      prefixed (namespace?.filter (!·.isEmpty)) (tagName field) := by
  cases namespace? with
  | none => rfl
  | some ns =>
    rw [attributeName, Option.filter]
    cases ns.isEmpty <;> rfl

theorem IsTag.mem {tag : String} (h : IsTag tag) {c : Char} (member : c ∈ tag.toList) :
    isInner c = true ∨ c = '-' := by
  obtain ⟨words, -, all, rfl⟩ := h
  rw [String.toList_ofList] at member
  exact mem_intercalate all member

theorem IsField.mem {field : String} (h : IsField field) {c : Char}
    (member : c ∈ field.toList) : isInner c = true ∨ c = '_' := by
  obtain ⟨words, -, all, rfl⟩ := h
  rw [String.toList_ofList] at member
  exact mem_intercalate all member

theorem IsTag.isFlat {tag : String} (h : IsTag tag) : ∀ c ∈ tag.toList, isFlat c = true := by
  intro c member
  rcases h.mem member with inner | rfl
  · rw [Naming.isFlat, inner, Bool.true_or]
  · decide

theorem IsField.isFlat {field : String} (h : IsField field) :
    ∀ c ∈ field.toList, isFlat c = true := by
  intro c member
  rcases h.mem member with inner | rfl
  · rw [Naming.isFlat, inner, Bool.true_or]
  · decide

theorem attributeName_fieldName {tag : String} (h : IsTag tag) {namespace? : Option String}
    (named : namespace? ≠ some "") :
    attributeName (fieldName (prefixed namespace? tag)) namespace? = prefixed namespace? tag := by
  have kept : namespace?.filter (!·.isEmpty) = namespace? := by
    cases namespace? with
    | none => rfl
    | some ns =>
      have filled : ns.isEmpty = false := by
        rw [Bool.eq_false_iff]
        exact fun empty => named (congrArg some (String.isEmpty_iff.1 empty))
      rw [Option.filter, filled]
      rfl
  have absent : '_' ∉ tag.toList := by
    intro member
    rcases h.mem member with inner | same
    · exact absurd inner (by decide)
    · exact absurd same (by decide)
  rw [fieldName_prefixed namespace? h.isFlat, attributeName_eq, kept, tagName,
    String.toList_ofList, hyphenate_flat (isFlat_rejoined '-' (by decide) h.isFlat),
    rejoined_rejoined '-' absent, String.ofList_toList]

theorem fieldName_attributeName {field : String} (h : IsField field)
    (namespace? : Option String) : fieldName (attributeName field namespace?) = field := by
  have absent : '-' ∉ field.toList := by
    intro member
    rcases h.mem member with inner | same
    · exact absurd inner (by decide)
    · exact absurd same (by decide)
  have hyphenated : (tagName field).toList = rejoined '_' '-' field.toList := by
    rw [tagName, String.toList_ofList, hyphenate_flat h.isFlat]
  have flat : ∀ c ∈ (tagName field).toList, isFlat c = true := by
    rw [hyphenated]
    exact isFlat_rejoined '_' (by decide) h.isFlat
  rw [attributeName_eq, fieldName_prefixed _ flat, hyphenated, rejoined_rejoined '_' absent,
    String.ofList_toList]

/-- Tags and types, attributes and fields are each found again from the other, whatever the
namespace, and types of one tag are one type. -/
theorem names_round_trip :
    (∀ tag, IsTag tag → tagName (typeName tag) = tag) ∧
      (∀ name, IsTypeName name → typeName (tagName name) = name) ∧
      (∀ tag namespace?, IsTag tag → namespace? ≠ some "" →
        attributeName (fieldName (prefixed namespace? tag)) namespace? =
          prefixed namespace? tag) ∧
      (∀ field namespace?, IsField field →
        fieldName (attributeName field namespace?) = field) ∧
      ∀ one other, IsTypeName one → IsTypeName other → tagName one = tagName other →
        one = other := by
  refine ⟨fun tag h => tagName_typeName h, fun name h => typeName_tagName h,
    fun tag namespace? h named => attributeName_fieldName h named,
    fun field namespace? h => fieldName_attributeName h namespace?, ?_⟩
  intro one other first second same
  calc
    one = typeName (tagName one) := (typeName_tagName first).symm
    _ = typeName (tagName other) := by rw [same]
    _ = other := typeName_tagName second

theorem isTag_workTitle : IsTag "x-work2-title" :=
  ⟨["x".toList, "work2".toList, "title".toList], by decide, by decide, by decide⟩

theorem isTypeName_workTitle : IsTypeName "XWork2Title" :=
  ⟨["X".toList, "Work2".toList, "Title".toList], by decide, by decide, by decide⟩

theorem isField_workTitle : IsField "x_work2_title" :=
  ⟨["x".toList, "work2".toList, "title".toList], by decide, by decide, by decide⟩

theorem names_round_trip_workTitle :
    tagName (typeName "x-work2-title") = "x-work2-title" ∧
      typeName (tagName "XWork2Title") = "XWork2Title" ∧
      attributeName (fieldName "a:b:x-work2-title") (some "a:b") = "a:b:x-work2-title" ∧
      fieldName (attributeName "x_work2_title" none) = "x_work2_title" ∧
      ∀ other, IsTypeName other → tagName "XWork2Title" = tagName other →
        "XWork2Title" = other :=
  ⟨names_round_trip.1 _ isTag_workTitle, names_round_trip.2.1 _ isTypeName_workTitle,
    names_round_trip.2.2.1 "x-work2-title" (some "a:b") isTag_workTitle (by decide),
    names_round_trip.2.2.2.1 _ none isField_workTitle,
    fun other => names_round_trip.2.2.2.2 _ other isTypeName_workTitle⟩

end Naming

end ScoreScript
