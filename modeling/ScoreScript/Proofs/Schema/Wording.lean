import ScoreScript.Proofs.Text.Quoted
import ScoreScript.Schema.Validation

/-!
The messages about the faults of an element tell the faults apart, whatever the names of
attributes and the values are. Main statement: `Finds.text_inj`.
-/

namespace ScoreScript

/-! ### What is expected -/

/-- Characters that a number or a fixed word in the wording of a rule may have. -/
def Bare (text : List Char) : Prop :=
  ∀ c ∈ text, c ∉ ['"', '\\', 'h', 'd']

instance (text : List Char) : Decidable (Bare text) :=
  List.decidableBAll (· ∉ ['"', '\\', 'h', 'd']) text

theorem Bare.append {first second : List Char} (hf : Bare first) (hs : Bare second) :
    Bare (first ++ second) :=
  List.forall_mem_append.2 ⟨hf, hs⟩

theorem Bare.reads {text : List Char} (bare : Bare text) :
    Quoting.outside.read text = some .outside := by
  apply Quoting.read_outside_of_quiet
  · intro c member
    have none := bare c member
    simp only [List.mem_cons, not_or] at none
    exact ⟨none.1, none.2.1⟩
  · intro member
    exact absurd (bare 'h' member) (by decide)

theorem Bare.last {text : List Char} (bare : Bare text) : text.getLast? ≠ some 'd' :=
  fun last => absurd (bare 'd' (List.mem_of_getLast? last)) (by decide)

theorem bare_digits (n : Nat) : Bare (Decimal.digits n) := by
  have none : ∀ d < 10, Nat.digitChar d ∉ ['"', '\\', 'h', 'd'] := by decide
  intro c member
  obtain ⟨d, small, rfl⟩ := mem_toDigits (by decide) member
  exact none d small

theorem bare_positional (x : Decimal) : Bare x.positional := by
  have digits := bare_digits x.coefficient
  have zeros (n : Nat) : Bare (List.replicate n '0') := by
    intro c member
    rw [List.eq_of_mem_replicate member]
    decide
  have point : '.' ∉ ['"', '\\', 'h', 'd'] := by decide
  unfold Decimal.positional
  split
  · exact digits.append (zeros _)
  · simp only
    split
    · refine Bare.append (fun c member => digits c (List.mem_of_mem_take member)) ?_
      exact List.forall_mem_cons.2 ⟨point, fun c member => digits c (List.mem_of_mem_drop member)⟩
    · refine List.forall_mem_cons.2 ⟨by decide, List.forall_mem_cons.2 ⟨point, ?_⟩⟩
      exact (zeros _).append digits

theorem bare_plainText (x : Float) : Bare (Decimal.plainText x).toList := by
  have signed {text : List Char} (bare : Bare text) : Bare (Decimal.withSign x text).toList := by
    rw [Decimal.withSign, String.toList_ofList]
    split
    · exact List.forall_mem_cons.2 ⟨by decide, bare⟩
    · exact bare
  unfold Decimal.plainText
  split
  · decide
  · split
    · exact signed (by decide)
    · exact signed (bare_positional _)

theorem bare_boundsText (rule : ValueRule) : Bare rule.boundsText.toList := by
  unfold ValueRule.boundsText
  split
  · rename_i min max _ _
    rw [show s!" in {Decimal.plainText min}..={Decimal.plainText max}" =
      " in " ++ Decimal.plainText min ++ "..=" ++ Decimal.plainText max from rfl]
    simp only [String.toList_append]
    exact (((by decide : Bare " in ".toList).append (bare_plainText min)).append
      (by decide)).append (bare_plainText max)
  · rename_i min _ _
    rw [show s!" >= {Decimal.plainText min}" = " >= " ++ Decimal.plainText min from rfl,
      String.toList_append]
    exact (by decide : Bare " >= ".toList).append (bare_plainText min)
  · rename_i max _ _
    rw [show s!" <= {Decimal.plainText max}" = " <= " ++ Decimal.plainText max from rfl,
      String.toList_append]
    exact (by decide : Bare " <= ".toList).append (bare_plainText max)
  · decide

/-- The wording of a rule ends outside of quotes, with another character than `d`. -/
structure Expected (text : List Char) : Prop where
  reads : Quoting.outside.read text = some .outside
  last : text.getLast? ≠ some 'd'

theorem Bare.expected {text : List Char} (bare : Bare text) : Expected text :=
  ⟨bare.reads, bare.last⟩

theorem Expected.append {first second : List Char}
    (reads : Quoting.outside.read first = some .outside) (expected : Expected second)
    (last : first.getLast? ≠ some 'd') : Expected (first ++ second) where
  reads := by
    rw [Quoting.read_append, reads]
    exact expected.reads
  last := by
    rw [List.getLast?_append]
    cases h : second.getLast? with
    | none => exact last
    | some c => exact fun same => expected.last (h.trans same)

theorem expected_one_of {values : List String} (some' : values ≠ []) :
    Expected (", ".intercalate (values.map quoted)).toList := by
  have single (value : String) : Expected (quoted value).toList := by
    refine ⟨Quoting.read_quoted value, ?_⟩
    rw [toList_quoted, ← List.cons_append, List.getLast?_concat]
    decide
  induction values with
  | nil => exact absurd rfl some'
  | cons value rest ih =>
    cases rest with
    | nil => exact String.intercalate_singleton ▸ single value
    | cons next rest =>
      rw [List.map_cons, List.map_cons, String.intercalate_cons_cons, String.toList_append,
        String.toList_append]
      refine Expected.append ?_ (ih (List.cons_ne_nil _ _)) ?_
      · rw [Quoting.read_append, (single value).reads]
        decide
      · rw [List.getLast?_append, show ", ".toList.getLast? = some ' ' by decide,
          Option.some_or]
        decide

theorem ValueRule.expected_text (rule : ValueRule) : Expected rule.text.toList := by
  unfold text
  split
  · rename_i limited
    rw [String.toList_append]
    refine Expected.append (by decide) (expected_one_of ?_) (by decide)
    rintro none
    rw [none] at limited
    cases limited
  · split
    · exact Bare.expected (by decide)
    · rw [String.toList_append]
      exact Expected.append (by decide) (bare_boundsText rule).expected (by decide)
    · rw [String.toList_append]
      exact Expected.append (by decide) (bare_boundsText rule).expected (by decide)

/-! ### The faults that a rule finds -/

/-- The faults that elements can have by a rule. -/
inductive ElementRule.Finds (rule : ElementRule) : Fault → Prop where
  | missingElement (expected : String) : Finds rule (.missingElement expected)
  | unexpectedElement (tag : String) : Finds rule (.unexpectedElement tag)
  | missingAttribute (name : String) : Finds rule (.missingAttribute name)
  | unexpectedAttribute (name : String) : Finds rule (.unexpectedAttribute name)
  | invalidAttribute (name value : String) (attr : AttributeRule)
      (known : rule.attributes.get? name = some attr) :
      Finds rule (.invalidValue s!"attribute {name}" value attr.value.text)
  | invalidText (value : String) (limits : ValueRule) (content : rule.content = .text limits) :
      Finds rule (.invalidValue "text" value limits.text)
  | unexpectedText : Finds rule .unexpectedText

namespace ElementRule

theorem finds_of_mem_sequenceFaults (rule : ElementRule) {particles : List Particle}
    {tags : List String} {f : Fault} (fault : f ∈ sequenceFaults particles tags) :
    rule.Finds f := by
  induction particles generalizing tags with
  | nil =>
    obtain ⟨tag, -, rfl⟩ := List.mem_map.1 fault
    exact .unexpectedElement tag
  | cons p rest ih =>
    rcases List.mem_append.1 fault with missing | later
    · split at missing
      · rw [List.mem_singleton.1 missing]
        exact .missingElement _
      · cases missing
    · exact ih later

theorem finds_of_mem_textFaults (rule : ElementRule) {text : Option String} {f : Fault}
    (fault : f ∈ textFaults text) : rule.Finds f := by
  unfold textFaults at fault
  split at fault
  · cases fault
  · rw [List.mem_singleton.1 fault]
    exact .unexpectedText

theorem finds_of_mem_contentFaults {rule : ElementRule} {text : Option String}
    {tags : List String} {f : Fault} (fault : f ∈ contentFaults text tags rule.content) :
    rule.Finds f := by
  have children (member : f ∈ tags.map Fault.unexpectedElement) : rule.Finds f := by
    obtain ⟨tag, -, rfl⟩ := List.mem_map.1 member
    exact .unexpectedElement tag
  cases content : rule.content with
  | empty =>
    rw [content, contentFaults, List.mem_append] at fault
    exact fault.elim rule.finds_of_mem_textFaults children
  | text limits =>
    rw [content, contentFaults, List.mem_append] at fault
    refine fault.elim children fun invalid => ?_
    split at invalid
    · cases invalid
    · rw [List.mem_singleton.1 invalid]
      exact .invalidText _ limits content
  | sequence particles =>
    rw [content, contentFaults, List.mem_append] at fault
    exact fault.elim rule.finds_of_mem_textFaults rule.finds_of_mem_sequenceFaults

theorem finds_of_mem_faults {rule : ElementRule} {e : Element} {f : Fault}
    (fault : f ∈ rule.faults e) : rule.Finds f := by
  rw [faults, List.mem_append, List.mem_append] at fault
  rcases fault with (present | absent) | inside
  · obtain ⟨⟨name, value⟩, -, found⟩ := List.mem_filterMap.1 present
    simp only at found
    cases known : rule.attributes.get? name with
    | none =>
      rw [known] at found
      cases found
      exact .unexpectedAttribute name
    | some attr =>
      rw [known] at found
      simp only at found
      split at found
      · cases found
      · cases found
        exact .invalidAttribute name value attr known
  · obtain ⟨⟨name, attr⟩, -, found⟩ := List.mem_filterMap.1 absent
    simp only at found
    split at found
    · cases found
      exact .missingAttribute name
    · cases found
  · exact finds_of_mem_contentFaults inside

end ElementRule

/-! ### Messages -/

/-- What a message about an invalid value has after its target. -/
def invalidity (value expected : String) : List Char :=
  (quoted value).toList ++ (", expected ".toList ++ expected.toList)

theorem toList_text_invalidValue (target value expected : String) :
    (Fault.invalidValue target value expected).text.toList =
      target.toList ++ (" has invalid value ".toList ++ invalidity value expected) := by
  rw [show (Fault.invalidValue target value expected).text =
      target ++ " has invalid value " ++ quoted value ++ ", expected " ++ expected from rfl]
  simp only [String.toList_append, invalidity, List.append_assoc]

theorem reads_invalidity (value : String) (limits : ValueRule) :
    Quoting.outside.read (invalidity value limits.text) = some .outside := by
  rw [invalidity, Quoting.read_append, Quoting.read_quoted, Option.bind_some,
    Quoting.read_append, show Quoting.outside.read ", expected ".toList = some .outside by decide]
  exact limits.expected_text.reads

/-- The words in the middle of such a message come once before a quoted value, so no target can
be continued by them. -/
theorem middle_once {front first second : List Char}
    (hf : Quoting.outside.read first = some .outside) (quoted' : first.head? = some '"')
    (hs : Quoting.outside.read second = some .outside)
    (same : " has invalid value ".toList ++ first =
      front ++ (" has invalid value ".toList ++ second)) : front = [] := by
  rcases List.append_eq_append_iff.1 same with ⟨back, rfl, rest⟩ | ⟨back, split, rest⟩
  · -- the words come again inside of what is after them, and so inside of quotes
    rw [rest, Quoting.read_append] at hf
    cases state : Quoting.outside.read back with
    | none =>
      rw [state] at hf
      cases hf
    | some q =>
      rw [state, Option.bind_some, Quoting.read_append] at hf
      cases q with
      | outside =>
        rw [show Quoting.outside.read " has invalid value ".toList = none by decide] at hf
        cases hf
      | inside =>
        rw [show Quoting.inside.read " has invalid value ".toList = some .inside by decide] at hf
        exact absurd hf (Quoting.read_inside_ne hs)
      | escaped =>
        rw [show Quoting.escaped.read " has invalid value ".toList = some .inside by decide] at hf
        exact absurd hf (Quoting.read_inside_ne hs)
  · -- the quote would stand among the words
    cases front with
    | nil => rfl
    | cons c front =>
      have length := congrArg List.length split
      rw [List.length_append, List.length_cons] at length
      have quote : (" has invalid value ".toList ++ second)[back.length]? = some '"' := by
        rw [rest, List.getElem?_append_right (Nat.le_refl _), Nat.sub_self,
          ← List.head?_eq_getElem?]
        exact quoted'
      rw [List.getElem?_append_left (by omega)] at quote
      exact absurd (List.mem_of_getElem? quote) (by decide)

theorem invalidValue_inj {target target' value value' : String} {limits limits' : ValueRule}
    (same : (Fault.invalidValue target value limits.text).text =
      (Fault.invalidValue target' value' limits'.text).text) :
    target = target' ∧ invalidity value limits.text = invalidity value' limits'.text := by
  have head (v : String) (e : String) : (invalidity v e).head? = some '"' := by
    rw [invalidity, toList_quoted]
    rfl
  rw [← String.toList_inj, toList_text_invalidValue, toList_text_invalidValue] at same
  rcases List.append_eq_append_iff.1 same with ⟨front, longer, rest⟩ | ⟨front, longer, rest⟩
  · have none := middle_once (reads_invalidity value limits) (head _ _)
      (reads_invalidity value' limits') rest
    rw [none] at longer rest
    rw [List.append_nil] at longer
    exact ⟨(String.toList_inj.1 longer).symm, List.append_cancel_left rest⟩
  · have none := middle_once (reads_invalidity value' limits') (head _ _)
      (reads_invalidity value limits) rest
    rw [none] at longer rest
    rw [List.append_nil] at longer
    exact ⟨String.toList_inj.1 longer, (List.append_cancel_left rest).symm⟩

theorem invalidity_inj {value value' expected : String}
    (same : invalidity value expected = invalidity value' expected) : value = value' :=
  quoted_inj (String.toList_inj.1 (List.append_cancel_right same))

/-! ### The first letter of a message -/

namespace Fault

theorem text_missingElement (expected : String) :
    (missingElement expected).text = "missing child element, expected " ++ expected :=
  rfl

theorem text_unexpectedElement (tag : String) :
    (unexpectedElement tag).text = "unexpected child element " ++ tag :=
  rfl

theorem text_missingAttribute (name : String) :
    (missingAttribute name).text = "required attribute " ++ name ++ " is missing" :=
  rfl

theorem text_unexpectedAttribute (name : String) :
    (unexpectedAttribute name).text = "attribute " ++ name ++ " is not allowed" :=
  rfl

@[simp] theorem head_missingElement (expected : String) :
    (missingElement expected).text.toList.head? = some 'm' := by
  rw [text_missingElement, String.toList_append]
  simp

@[simp] theorem head_unexpectedElement (tag : String) :
    (unexpectedElement tag).text.toList.head? = some 'u' := by
  rw [text_unexpectedElement, String.toList_append]
  simp

@[simp] theorem head_missingAttribute (name : String) :
    (missingAttribute name).text.toList.head? = some 'r' := by
  rw [text_missingAttribute, String.toList_append, String.toList_append]
  simp

@[simp] theorem head_unexpectedAttribute (name : String) :
    (unexpectedAttribute name).text.toList.head? = some 'a' := by
  rw [text_unexpectedAttribute, String.toList_append, String.toList_append]
  simp

@[simp] theorem head_invalidAttribute (name value expected : String) :
    (invalidValue s!"attribute {name}" value expected).text.toList.head? = some 'a' := by
  rw [toList_text_invalidValue, show s!"attribute {name}" = "attribute " ++ name from rfl,
    String.toList_append]
  simp

@[simp] theorem head_invalidText (value expected : String) :
    (invalidValue "text" value expected).text.toList.head? = some 't' := by
  rw [toList_text_invalidValue]
  simp

@[simp] theorem head_unexpectedText : unexpectedText.text.toList.head? = some 't' := by
  decide

end Fault

/-- An attribute is not both unknown and of an invalid value by one message, since the two end
in different ways. -/
theorem unexpectedAttribute_ne_invalidValue (name target value : String) (limits : ValueRule) :
    (Fault.unexpectedAttribute name).text ≠ (Fault.invalidValue target value limits.text).text := by
  intro same
  have last := congrArg (·.toList.getLast?) same
  simp only [Fault.text_unexpectedAttribute, toList_text_invalidValue, String.toList_append,
    invalidity, ← List.append_assoc] at last
  rw [List.getLast?_append, show " is not allowed".toList.getLast? = some 'd' by decide,
    Option.some_or, List.getLast?_append] at last
  cases ending : limits.text.toList.getLast? with
  | some c =>
    rw [ending, Option.some_or] at last
    exact limits.expected_text.last (ending.trans last.symm)
  | none =>
    rw [ending, Option.none_or, List.getLast?_append,
      show ", expected ".toList.getLast? = some ' ' by decide, Option.some_or] at last
    exact absurd last (by decide)

theorem unexpectedText_ne_invalidText (value expected : String) :
    Fault.unexpectedText.text ≠ (Fault.invalidValue "text" value expected).text := by
  intro same
  rw [← String.toList_inj, toList_text_invalidValue,
    show Fault.unexpectedText.text = "text" ++ " content is not allowed" by decide,
    String.toList_append] at same
  have second := congrArg (·[1]?) (List.append_cancel_left same)
  simp at second

namespace ElementRule.Finds

variable {rule : ElementRule} {f g : Fault}

/-- Of the faults that one rule finds no two have the same message. -/
theorem text_inj (hf : rule.Finds f) (hg : rule.Finds g) (same : f.text = g.text) : f = g := by
  have heads := congrArg (·.toList.head?) same
  cases hf with
  | missingElement expected =>
    cases hg with
    | missingElement expected' =>
      rw [Fault.text_missingElement, Fault.text_missingElement] at same
      rw [(String.append_right_inj _).1 same]
    | _ => simp at heads
  | unexpectedElement tag =>
    cases hg with
    | unexpectedElement tag' =>
      rw [Fault.text_unexpectedElement, Fault.text_unexpectedElement] at same
      rw [(String.append_right_inj _).1 same]
    | _ => simp at heads
  | missingAttribute name =>
    cases hg with
    | missingAttribute name' =>
      rw [Fault.text_missingAttribute, Fault.text_missingAttribute] at same
      rw [(String.append_right_inj _).1 ((String.append_left_inj _).1 same)]
    | _ => simp at heads
  | unexpectedAttribute name =>
    cases hg with
    | unexpectedAttribute name' =>
      rw [Fault.text_unexpectedAttribute, Fault.text_unexpectedAttribute] at same
      rw [(String.append_right_inj _).1 ((String.append_left_inj _).1 same)]
    | invalidAttribute name' value attr known =>
      exact absurd same (unexpectedAttribute_ne_invalidValue _ _ _ _)
    | _ => simp at heads
  | invalidAttribute name value attr known =>
    cases hg with
    | unexpectedAttribute name' =>
      exact absurd same.symm (unexpectedAttribute_ne_invalidValue _ _ _ _)
    | invalidAttribute name' value' attr' known' =>
      obtain ⟨target, rest⟩ := invalidValue_inj same
      have target' : "attribute " ++ name = "attribute " ++ name' := target
      have sameName := (String.append_right_inj _).1 target'
      subst sameName
      rw [known] at known'
      cases known'
      rw [invalidity_inj rest]
    | _ => simp at heads
  | invalidText value limits content =>
    cases hg with
    | invalidText value' limits' content' =>
      rw [content] at content'
      cases content'
      rw [invalidity_inj (invalidValue_inj same).2]
    | unexpectedText => exact absurd same.symm (unexpectedText_ne_invalidText _ _)
    | _ => simp at heads
  | unexpectedText =>
    cases hg with
    | invalidText value limits content =>
      exact absurd same (unexpectedText_ne_invalidText _ _)
    | unexpectedText => rfl
    | _ => simp at heads

/-- A message says whether the fault is a missing child, whatever rule found it. -/
theorem isMissingElement_iff_head (found : rule.Finds f) :
    f.isMissingElement = true ↔ f.text.toList.head? = some 'm' := by
  cases found <;> simp [Fault.isMissingElement]

end ElementRule.Finds

namespace Schema

/-- The faults that elements of a tag can have. -/
def Finds (s : Schema) (tag : String) (f : Fault) : Prop :=
  ∃ rule, s.rule? tag = some rule ∧ rule.Finds f

variable {s : Schema}

theorem finds_of_mem_ownFaults {e : Element} {f : Fault} (fault : f ∈ s.ownFaults e) :
    s.Finds e.tag f := by
  unfold ownFaults at fault
  cases known : s.rule? e.tag with
  | none =>
    rw [known] at fault
    cases fault
  | some rule =>
    rw [known] at fault
    exact ⟨rule, known, ElementRule.finds_of_mem_faults fault⟩

theorem Finds.text_inj {tag : String} {f g : Fault} (hf : s.Finds tag f) (hg : s.Finds tag g)
    (same : f.text = g.text) : f = g := by
  obtain ⟨rule, known, hf⟩ := hf
  obtain ⟨rule', known', hg⟩ := hg
  rw [known] at known'
  cases known'
  exact hf.text_inj hg same

theorem Finds.isMissingElement_of_text {tag tag' : String} {f g : Fault} (hf : s.Finds tag f)
    (hg : s.Finds tag' g) (same : f.text = g.text) (missing : f.isMissingElement = true) :
    g.isMissingElement = true := by
  obtain ⟨rule, -, hf⟩ := hf
  obtain ⟨rule', -, hg⟩ := hg
  rw [hg.isMissingElement_iff_head, ← same]
  exact hf.isMissingElement_iff_head.1 missing

end Schema

end ScoreScript
