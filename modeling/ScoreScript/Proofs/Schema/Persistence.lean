import ScoreScript.Schema.Validation

/-!
Which faults of an element stay while it grows. More children make no fault go away but those of
missing children; an attribute or a text that is set can only make up for what was missing or
take the place of an older value.
-/

namespace ScoreScript

/-- A fault that setting an attribute or a text can make go away. -/
def Fault.Passing : Fault → Prop
  | .missingAttribute _ => True
  | .invalidValue _ _ _ => True
  | .unexpectedText => True
  | _ => False

/-! ### More children -/

/-- What a step of a sequence leaves of some tags it leaves of more, too. -/
theorem drop_block_sublist (accepts : String → Bool) {tags more : List String}
    (sub : tags.Sublist more) (bound : Nat) :
    (tags.drop ((tags.takeWhile accepts).take bound).length).Sublist
      (more.drop ((more.takeWhile accepts).take bound).length) := by
  induction sub generalizing bound with
  | slnil => exact List.Sublist.refl _
  | @cons tags more tag sub ih =>
    cases bound with
    | zero =>
      simp only [List.take_zero, List.length_nil, List.drop_zero]
      exact sub.cons tag
    | succ bound =>
      cases taken : accepts tag with
      | true =>
        rw [List.takeWhile_cons_of_pos taken, List.take_succ_cons, List.length_cons,
          List.drop_succ_cons]
        refine (ih (bound + 1)).trans ?_
        apply List.drop_sublist_drop_left
        rw [List.length_take, List.length_take]
        omega
      | false =>
        rw [List.takeWhile_cons_of_neg (by rw [taken]; exact Bool.false_ne_true)]
        exact (List.drop_sublist _ _).trans (sub.cons tag)
  | @cons_cons tags more tag sub ih =>
    cases bound with
    | zero => exact sub.cons_cons tag
    | succ bound =>
      cases taken : accepts tag with
      | true =>
        rw [List.takeWhile_cons_of_pos taken, List.takeWhile_cons_of_pos taken,
          List.take_succ_cons, List.take_succ_cons, List.length_cons, List.length_cons,
          List.drop_succ_cons, List.drop_succ_cons]
        exact ih bound
      | false =>
        rw [List.takeWhile_cons_of_neg (by rw [taken]; exact Bool.false_ne_true),
          List.takeWhile_cons_of_neg (by rw [taken]; exact Bool.false_ne_true)]
        exact sub.cons_cons tag

/-- What a step of a sequence leaves of the tags. -/
def Particle.leaves (p : Particle) (tags : List String) : List String :=
  tags.drop (p.block tags).length

theorem Particle.leaves_sublist (p : Particle) {tags more : List String}
    (sub : tags.Sublist more) : (p.leaves tags).Sublist (p.leaves more) := by
  unfold leaves block
  cases p.max with
  | some bound => exact drop_block_sublist _ sub bound
  | none =>
    -- no bound is as good as one that is not reached
    have full (l : List String) (short : l.length ≤ more.length) :
        l.takeWhile p.term.accepts = (l.takeWhile p.term.accepts).take more.length := by
      rw [List.take_of_length_le]
      exact Nat.le_trans (List.takeWhile_prefix _).length_le short
    have bounded := drop_block_sublist p.term.accepts sub more.length
    rw [← full tags sub.length_le, ← full more (Nat.le_refl _)] at bounded
    exact bounded

theorem unexpectedElement_mem_sequenceFaults {particles : List Particle} {tags more : List String}
    (sub : tags.Sublist more) {tag : String}
    (fault : .unexpectedElement tag ∈ sequenceFaults particles tags) :
    .unexpectedElement tag ∈ sequenceFaults particles more := by
  induction particles generalizing tags more with
  | nil =>
    obtain ⟨t, member, same⟩ := List.mem_map.1 fault
    exact List.mem_map.2 ⟨t, sub.subset member, same⟩
  | cons p rest ih =>
    rw [sequenceFaults, List.mem_append] at *
    rcases fault with missing | later
    · split at missing
      · cases List.mem_singleton.1 missing
      · cases missing
    · exact .inr (ih (p.leaves_sublist sub) later)

theorem mem_sequenceFaults {particles : List Particle} {tags : List String} {f : Fault}
    (fault : f ∈ sequenceFaults particles tags) :
    f.isMissingElement = true ∨ ∃ tag, f = .unexpectedElement tag := by
  induction particles generalizing tags with
  | nil =>
    obtain ⟨t, -, rfl⟩ := List.mem_map.1 fault
    exact .inr ⟨t, rfl⟩
  | cons p rest ih =>
    rw [sequenceFaults, List.mem_append] at fault
    rcases fault with missing | later
    · split at missing
      · rw [List.mem_singleton.1 missing]
        exact .inl rfl
      · cases missing
    · exact ih later

theorem contentFaults_mono {text : Option String} {tags more : List String} {content : Content}
    {f : Fault} (sub : tags.Sublist more) (fault : f ∈ contentFaults text tags content)
    (present : f.isMissingElement = false) : f ∈ contentFaults text more content := by
  have children (member : f ∈ tags.map Fault.unexpectedElement) :
      f ∈ more.map Fault.unexpectedElement := by
    obtain ⟨t, member, same⟩ := List.mem_map.1 member
    exact List.mem_map.2 ⟨t, sub.subset member, same⟩
  cases content with
  | empty =>
    rw [contentFaults, List.mem_append] at *
    exact fault.imp_right children
  | text rule =>
    simp only [contentFaults, List.mem_append] at *
    exact fault.imp_left children
  | sequence particles =>
    rw [contentFaults, List.mem_append] at *
    refine fault.imp_right fun fault => ?_
    rcases mem_sequenceFaults fault with missing | ⟨tag, rfl⟩
    · rw [present] at missing
      cases missing
    · exact unexpectedElement_mem_sequenceFaults sub fault

namespace Schema

/-- More children make no fault go away but that of a missing one. -/
theorem ownFaults_mono (s : Schema) {a b : Element} (tag : b.tag = a.tag)
    (attributes : b.attributes = a.attributes) (text : b.text = a.text)
    (children : (a.children.map (·.tag)).Sublist (b.children.map (·.tag))) {f : Fault}
    (fault : f ∈ s.ownFaults a) (present : f.isMissingElement = false) : f ∈ s.ownFaults b := by
  unfold ownFaults at *
  rw [tag]
  cases rule : s.rule? a.tag with
  | none =>
    rw [rule] at fault
    cases fault
  | some rule' =>
    rw [rule] at fault
    simp only [ElementRule.faults, List.mem_append] at *
    rw [attributes, text]
    exact fault.imp_right fun inside => contentFaults_mono children inside present

end Schema

/-! ### Other attributes and texts -/

namespace Assoc

variable {α : Type}

theorem mem_put_self (table : Assoc α) (key : String) (value : α) :
    (key, value) ∈ put key value table := by
  induction table with
  | nil => exact List.mem_singleton.2 rfl
  | cons entry rest ih =>
    rw [put]
    split
    · exact List.mem_cons_self
    · exact List.mem_cons_of_mem _ ih

theorem mem_put_of_ne {table : Assoc α} {key : String} {entry : String × α} (value : α)
    (member : entry ∈ table) (other : entry.1 ≠ key) : entry ∈ put key value table := by
  induction table with
  | nil => cases member
  | cons first rest ih =>
    rw [put]
    rcases List.mem_cons.1 member with rfl | later
    · rw [if_neg other]
      exact List.mem_cons_self
    · split
      · exact List.mem_cons_of_mem _ later
      · exact List.mem_cons_of_mem _ (ih later)

end Assoc

theorem presentFaults_put {rule : ElementRule} {attributes : Assoc String} {f : Fault}
    (name value : String) (fault : f ∈ presentFaults rule attributes) :
    f ∈ presentFaults rule (attributes.put name value) ∨ f.Passing := by
  obtain ⟨⟨name', value'⟩, member, found⟩ := List.mem_filterMap.1 fault
  by_cases other : name' = name
  · subst other
    cases known : rule.attributes.get? name' with
    | none =>
      left
      refine List.mem_filterMap.2 ⟨(name', value), Assoc.mem_put_self attributes name' value, ?_⟩
      simp only [known] at *
      exact found
    | some attr =>
      right
      simp only [known] at found
      split at found
      · cases found
      · cases found
        trivial
  · exact .inl (List.mem_filterMap.2
      ⟨(name', value'), Assoc.mem_put_of_ne value member other, found⟩)

theorem absentFaults_passing {rule : ElementRule} {attributes : Assoc String} {f : Fault}
    (fault : f ∈ absentFaults rule attributes) : f.Passing := by
  obtain ⟨⟨name, attr⟩, -, found⟩ := List.mem_filterMap.1 fault
  simp only at found
  split at found
  · cases found
    trivial
  · cases found

theorem contentFaults_text {text text' : Option String} {tags : List String} {content : Content}
    {f : Fault} (fault : f ∈ contentFaults text tags content) :
    f ∈ contentFaults text' tags content ∨ f.Passing := by
  have passing (member : f ∈ textFaults text) : f.Passing := by
    unfold textFaults at member
    split at member
    · cases member
    · rw [List.mem_singleton.1 member]
      trivial
  cases content with
  | empty =>
    rw [contentFaults, List.mem_append] at *
    rcases fault with inText | children
    · exact .inr (passing inText)
    · exact .inl (.inr children)
  | text rule =>
    simp only [contentFaults, List.mem_append] at *
    rcases fault with children | value
    · exact .inl (.inl children)
    · right
      split at value
      · cases value
      · rw [List.mem_singleton.1 value]
        trivial
  | sequence particles =>
    rw [contentFaults, List.mem_append] at *
    rcases fault with inText | children
    · exact .inr (passing inText)
    · exact .inl (.inr children)

namespace Schema

/-- Setting an attribute makes passing faults go away, no others. -/
theorem ownFaults_setAttribute (s : Schema) (e : Element) (name value : String) {f : Fault}
    (fault : f ∈ s.ownFaults e) : f ∈ s.ownFaults (e.setAttribute name value) ∨ f.Passing := by
  unfold ownFaults Element.setAttribute at *
  cases rule : s.rule? e.tag with
  | none =>
    rw [rule] at fault
    cases fault
  | some rule' =>
    rw [rule] at fault
    simp only [ElementRule.faults, List.mem_append] at *
    rcases fault with (present | absent) | inside
    · exact (presentFaults_put name value present).imp_left fun present => .inl (.inl present)
    · exact .inr (absentFaults_passing absent)
    · exact .inl (.inr inside)

/-- Setting a text makes passing faults go away, no others. -/
theorem ownFaults_setText (s : Schema) (e : Element) (text : String) {f : Fault}
    (fault : f ∈ s.ownFaults e) : f ∈ s.ownFaults (e.setText text) ∨ f.Passing := by
  unfold ownFaults Element.setText at *
  cases rule : s.rule? e.tag with
  | none =>
    rw [rule] at fault
    cases fault
  | some rule' =>
    rw [rule] at fault
    simp only [ElementRule.faults, List.mem_append] at *
    rcases fault with attributes | inside
    · exact .inl (.inl attributes)
    · exact (contentFaults_text inside).imp_left .inr

end Schema

end ScoreScript
