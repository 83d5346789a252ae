import ScoreScript.Proofs.Assoc
import ScoreScript.Proofs.Json.Spelling

/-!
The reader takes what tokens spell. Values in order are read from their tokens whatever comes
behind them, and a bracket that stands in as many open brackets as are allowed is refused. Main
statements: `Json.isRead`, `Json.value_of_brim`.
-/

namespace ScoreScript

namespace Json

variable {limits : Limits} {depth budget : Nat} {final : Except Error Span}
  {t next : Token TokenKind} {tokens used passed rest : List (Token TokenKind)}

theorem Stream.next_cons (t : Token TokenKind) (rest : List (Token TokenKind)) :
    (⟨t :: rest, final⟩ : Stream).next = .ok (t, ⟨rest, final⟩) :=
  rfl

theorem checkDepth_of_le {span : Span} (fits : 0 < limits.maxDepth → depth ≤ limits.maxDepth) :
    limits.checkDepth depth span = .ok () := by
  rw [Limits.checkDepth, if_pos]
  rw [Limits.allows, Bool.or_eq_true, beq_iff_eq, decide_eq_true_iff]
  omega

theorem checkDepth_of_lt (span : Span) (limited : 0 < limits.maxDepth)
    (deep : limits.maxDepth < depth) :
    limits.checkDepth depth span = .error ⟨.limit (.depth limits.maxDepth), span⟩ := by
  rw [Limits.checkDepth, if_neg]
  rw [Limits.allows, Bool.or_eq_true, beq_iff_eq, decide_eq_true_iff]
  omega

theorem kinds_eq_append {first second : List TokenKind} (spelled : kinds tokens = first ++ second) :
    ∃ before after, tokens = before ++ after ∧ kinds before = first ∧ kinds after = second :=
  List.map_eq_append_iff.1 spelled

theorem kinds_eq_cons {kind : TokenKind} {more : List TokenKind}
    (spelled : kinds tokens = kind :: more) :
    ∃ t rest, tokens = t :: rest ∧ t.kind = kind ∧ kinds rest = more :=
  List.map_eq_cons_iff.1 spelled

/-- What is first where some pieces are passed and something comes next: the start of a piece, or
what comes next. -/
theorem first_of_separated {starts : TokenKind → Prop} {pieces : List (List TokenKind)}
    (heads : ∀ piece ∈ pieces, ∃ kind more, piece = kind :: more ∧ starts kind)
    (behind : starts next.kind) (spelled : kinds passed = separated pieces)
    (split : t :: tokens = passed ++ next :: rest) : starts t.kind := by
  cases pieces with
  | nil =>
    cases List.map_eq_nil_iff.1 spelled
    cases split
    exact behind
  | cons piece pieces =>
    obtain ⟨kind, more, rfl, first⟩ := heads piece List.mem_cons_self
    rw [separated_cons, List.cons_append] at spelled
    obtain ⟨t', passed, rfl, rfl, -⟩ := kinds_eq_cons spelled
    cases split
    exact first

/-- At this depth a value is read from its tokens, whatever comes behind them. -/
structure IsRead (limits : Limits) (depth : Nat) (v : Json) : Prop where
  value_eq : ∀ {budget : Nat} {t : Token TokenKind} {used rest : List (Token TokenKind)}
    {final : Except Error Span}, kinds (t :: used) = v.spelling → used.length < budget →
    value budget limits depth t ⟨used ++ rest, final⟩ = .ok (v, ⟨rest, final⟩)

theorem opens_of_spelling {v : Json} (spelled : kinds (t :: used) = v.spelling) :
    t.kind.opens = true := by
  obtain ⟨kind, more, shape, opens⟩ := exists_spelling v
  rw [shape] at spelled
  rwa [← (List.cons.inj spelled).1] at opens

/-! ### Arrays -/

theorem opens_of_spellings (items : List Json) :
    ∀ piece ∈ spellings items, ∃ kind more, piece = kind :: more ∧ kind.opens = true := by
  intro piece member
  rw [spellings_eq_map] at member
  obtain ⟨v, -, rfl⟩ := List.mem_map.1 member
  exact exists_spelling v

/-- One item and the comma behind it are passed. -/
theorem elements_step {v : Json} (read : IsRead limits depth v) {before : List Json}
    {comma : Token TokenKind} (spelled : kinds (t :: used) = v.spelling)
    (separates : comma.kind = .comma) (opens : next.kind.opens = true)
    (enough : used.length < budget) :
    elements (budget + 1) limits depth before t ⟨used ++ comma :: next :: rest, final⟩ =
      elements budget limits depth (v :: before) next ⟨rest, final⟩ := by
  rw [elements, read.value_eq spelled enough]
  simp only [bind, Except.bind, Stream.next_cons, separates]
  split
  · rename_i close
    rw [close] at opens
    cases opens
  · rfl

/-- Items with a comma behind each are passed. -/
theorem elements_pass {items : List Json} (read : ∀ v ∈ items, IsRead limits depth v)
    (before : List Json) (split : t :: tokens = passed ++ next :: rest)
    (spelled : kinds passed = separated (spellings items)) (opens : next.kind.opens = true)
    (enough : passed.length < budget) :
    ∃ budget', budget ≤ passed.length + budget' ∧
      elements budget limits depth before t ⟨tokens, final⟩ =
        elements budget' limits depth (items.reverse ++ before) next ⟨rest, final⟩ := by
  induction items generalizing budget before t tokens passed with
  | nil =>
    cases List.map_eq_nil_iff.1 spelled
    cases split
    exact ⟨budget, by simp, rfl⟩
  | cons v items ih =>
    rw [spellings, separated_cons] at spelled
    obtain ⟨item, behind, rfl, here, later⟩ := kinds_eq_append spelled
    obtain ⟨comma, passed, rfl, separates, others⟩ := kinds_eq_cons later
    obtain ⟨kind, more, shape, -⟩ := exists_spelling v
    obtain ⟨t', used, rfl, -, -⟩ := kinds_eq_cons (here.trans shape)
    obtain ⟨t'', tokens', split'⟩ := List.exists_cons_of_ne_nil
      (List.append_ne_nil_of_right_ne_nil passed (List.cons_ne_nil next rest))
    rw [List.cons_append, List.cons_append, List.append_assoc, List.cons_append, split'] at split
    cases split
    obtain ⟨budget, rfl⟩ := Nat.exists_eq_add_one_of_ne_zero (Nat.ne_zero_of_lt enough)
    simp only [List.length_append, List.length_cons] at enough
    have opens' : t''.kind.opens = true :=
      first_of_separated (opens_of_spellings items) opens others split'.symm
    have enough' : passed.length < budget := by omega
    obtain ⟨budget', left, passes⟩ := ih (fun w member => read w (List.mem_cons_of_mem v member))
      (v :: before) split'.symm others enough'
    refine ⟨budget', by simp only [List.length_append, List.length_cons]; omega, ?_⟩
    rw [elements_step (read v List.mem_cons_self) here separates opens' (by omega), passes,
      List.reverse_cons, List.append_assoc, List.singleton_append]

/-- From the opening bracket on, items with a comma behind each are passed. -/
theorem value_pass_items {items : List Json} (read : ∀ v ∈ items, IsRead limits (depth + 1) v)
    (fits : 0 < limits.maxDepth → depth + 1 ≤ limits.maxDepth) (opened : t.kind = .leftBracket)
    (spelled : kinds passed = separated (spellings items)) (opens : next.kind.opens = true)
    (enough : passed.length < budget) :
    ∃ budget', budget ≤ passed.length + budget' ∧
      value (budget + 1) limits depth t ⟨passed ++ next :: rest, final⟩ =
        elements budget' limits (depth + 1) items.reverse next ⟨rest, final⟩ := by
  obtain ⟨first, tokens, split⟩ := List.exists_cons_of_ne_nil
    (List.append_ne_nil_of_right_ne_nil passed (List.cons_ne_nil next rest))
  obtain ⟨budget', left, passes⟩ := elements_pass read [] split.symm spelled opens enough
  have opens' : first.kind.opens = true :=
    first_of_separated (opens_of_spellings items) opens spelled split.symm
  refine ⟨budget', left, ?_⟩
  rw [List.append_nil] at passes
  rw [value, split, ← passes]
  simp only [opened, checkDepth_of_le fits, bind, Except.bind, Stream.next_cons]
  split
  · rename_i close
    rw [close] at opens'
    cases opens'
  · rfl

theorem isRead_array {items : List Json} (read : ∀ v ∈ items, IsRead limits (depth + 1) v)
    (fits : 0 < limits.maxDepth → depth + 1 ≤ limits.maxDepth) :
    IsRead limits depth (.array items) := by
  constructor
  intro budget t used rest final spelled enough
  obtain ⟨budget, rfl⟩ := Nat.exists_eq_add_one_of_ne_zero (Nat.ne_zero_of_lt enough)
  obtain ⟨opened, spelled⟩ := List.cons.inj spelled
  obtain ⟨inside, behind, rfl, inner, closes⟩ := kinds_eq_append spelled
  obtain ⟨close, none, rfl, closed, nothing⟩ := kinds_eq_cons closes
  cases List.map_eq_nil_iff.1 nothing
  rcases List.eq_nil_or_concat' items with rfl | ⟨earlier, last, rfl⟩
  · cases List.map_eq_nil_iff.1 inner
    rw [value]
    simp only [opened, checkDepth_of_le fits, List.nil_append, List.cons_append, bind, Except.bind,
      Stream.next_cons, closed]
    rfl
  · rw [intercalate_spellings] at inner
    obtain ⟨passed, item, rfl, before, here⟩ := kinds_eq_append inner
    obtain ⟨kind, more, shape, -⟩ := exists_spelling last
    obtain ⟨next, used, rfl, -, -⟩ := kinds_eq_cons (here.trans shape)
    simp only [List.length_append, List.length_cons, List.length_nil] at enough
    have enough' : passed.length < budget := by omega
    obtain ⟨budget', left, passes⟩ :=
      value_pass_items (fun v member => read v (List.mem_append_left [last] member)) fits opened
        before (opens_of_spelling here) enough'
    obtain ⟨budget', rfl⟩ : ∃ b, budget' = b + 1 := ⟨budget' - 1, by omega⟩
    have split : passed ++ next :: used ++ [close] ++ rest =
        passed ++ next :: (used ++ close :: rest) := by simp
    rw [split, passes, elements,
      (read last (List.mem_append_right earlier List.mem_cons_self)).value_eq here (by omega)]
    simp only [bind, Except.bind, Stream.next_cons, closed, List.reverse_cons, List.reverse_reverse]
    rfl

/-! ### Objects -/

theorem string_of_entrySpellings (entries : List (String × Json)) :
    ∀ piece ∈ entrySpellings entries, ∃ kind more, piece = kind :: more ∧
      ∃ key, kind = .string key := by
  intro piece member
  rw [entrySpellings_eq_map] at member
  obtain ⟨entry, -, rfl⟩ := List.mem_map.1 member
  exact ⟨_, _, rfl, entry.1, rfl⟩

/-- One entry and the comma behind it are passed. -/
theorem members_step {v : Json} (read : IsRead limits depth v) {before : Assoc Json} {key : String}
    {colon first comma : Token TokenKind} (named : t.kind = .string key)
    (new : before.contains key = false) (assigns : colon.kind = .colon)
    (spelled : kinds (first :: used) = v.spelling) (separates : comma.kind = .comma)
    (more : ∃ key, next.kind = .string key) (enough : used.length < budget) :
    members (budget + 1) limits depth before t
        ⟨colon :: first :: (used ++ comma :: next :: rest), final⟩ =
      members budget limits depth ((key, v) :: before) next ⟨rest, final⟩ := by
  obtain ⟨key', more⟩ := more
  rw [members]
  simp only [named, bind, Except.bind, Stream.next_cons, assigns, read.value_eq spelled enough, new,
    Bool.false_eq_true, if_false, separates, more]

/-- Entries with a comma behind each are passed. -/
theorem members_pass {entries : Assoc Json} (read : ∀ entry ∈ entries, IsRead limits depth entry.2)
    {before : Assoc Json} (keys : (Assoc.keys (entries.reverse ++ before)).Nodup)
    (split : t :: tokens = passed ++ next :: rest)
    (spelled : kinds passed = separated (entrySpellings entries))
    (more : ∃ key, next.kind = .string key) (enough : passed.length < budget) :
    ∃ budget', budget ≤ passed.length + budget' ∧
      members budget limits depth before t ⟨tokens, final⟩ =
        members budget' limits depth (entries.reverse ++ before) next ⟨rest, final⟩ := by
  induction entries generalizing budget before t tokens passed with
  | nil =>
    cases List.map_eq_nil_iff.1 spelled
    cases split
    exact ⟨budget, by simp, rfl⟩
  | cons entry entries ih =>
    obtain ⟨key, v⟩ := entry
    rw [entrySpellings, separated_cons] at spelled
    obtain ⟨name, item, rfl, named, assigned⟩ := kinds_eq_cons spelled
    obtain ⟨colon, item, rfl, assigns, valued⟩ := kinds_eq_cons assigned
    obtain ⟨item, behind, rfl, here, later⟩ := kinds_eq_append valued
    obtain ⟨comma, passed, rfl, separates, others⟩ := kinds_eq_cons later
    obtain ⟨kind, more, shape, -⟩ := exists_spelling v
    obtain ⟨first, used, rfl, -, -⟩ := kinds_eq_cons (here.trans shape)
    obtain ⟨t'', tokens', split'⟩ := List.exists_cons_of_ne_nil
      (List.append_ne_nil_of_right_ne_nil passed (List.cons_ne_nil next rest))
    simp only [List.cons_append, List.append_assoc, split'] at split
    cases split
    obtain ⟨budget, rfl⟩ := Nat.exists_eq_add_one_of_ne_zero (Nat.ne_zero_of_lt enough)
    simp only [List.length_append, List.length_cons] at enough
    rw [List.reverse_cons, List.append_assoc, List.singleton_append] at keys
    have new : before.contains key = false := by
      rw [Assoc.keys, List.map_append] at keys
      exact (Assoc.nodup_keys_cons.1 keys.of_append_right).1
    have next' : ∃ key, t''.kind = .string key :=
      first_of_separated (string_of_entrySpellings entries) ‹_› others split'.symm
    have enough' : passed.length < budget := by omega
    obtain ⟨budget', left, passes⟩ :=
      ih (fun entry member => read entry (List.mem_cons_of_mem _ member)) keys split'.symm others
        enough'
    refine ⟨budget', by simp only [List.length_append, List.length_cons]; omega, ?_⟩
    rw [members_step (read _ List.mem_cons_self) named new assigns here separates next' (by omega),
      passes, List.reverse_cons, List.append_assoc, List.singleton_append]

/-- From the opening brace on, entries with a comma behind each are passed. -/
theorem value_pass_entries {entries : Assoc Json}
    (read : ∀ entry ∈ entries, IsRead limits (depth + 1) entry.2)
    (keys : (Assoc.keys entries).Nodup)
    (fits : 0 < limits.maxDepth → depth + 1 ≤ limits.maxDepth) (opened : t.kind = .leftBrace)
    (spelled : kinds passed = separated (entrySpellings entries))
    (more : ∃ key, next.kind = .string key) (enough : passed.length < budget) :
    ∃ budget', budget ≤ passed.length + budget' ∧
      value (budget + 1) limits depth t ⟨passed ++ next :: rest, final⟩ =
        members budget' limits (depth + 1) entries.reverse next ⟨rest, final⟩ := by
  obtain ⟨first, tokens, split⟩ := List.exists_cons_of_ne_nil
    (List.append_ne_nil_of_right_ne_nil passed (List.cons_ne_nil next rest))
  have keys' : (Assoc.keys (entries.reverse ++ [])).Nodup := by
    rwa [List.append_nil, Assoc.nodup_keys_reverse]
  obtain ⟨budget', left, passes⟩ :=
    members_pass read keys' split.symm spelled more enough
  obtain ⟨key, more'⟩ : ∃ key, first.kind = .string key :=
    first_of_separated (string_of_entrySpellings entries) more spelled split.symm
  refine ⟨budget', left, ?_⟩
  rw [List.append_nil] at passes
  rw [value, split, ← passes]
  simp only [opened, checkDepth_of_le fits, bind, Except.bind, Stream.next_cons, more']

theorem isRead_object {entries : Assoc Json} (keys : (Assoc.keys entries).Nodup)
    (read : ∀ entry ∈ entries, IsRead limits (depth + 1) entry.2)
    (fits : 0 < limits.maxDepth → depth + 1 ≤ limits.maxDepth) :
    IsRead limits depth (.object entries) := by
  constructor
  intro budget t used rest final spelled enough
  obtain ⟨budget, rfl⟩ := Nat.exists_eq_add_one_of_ne_zero (Nat.ne_zero_of_lt enough)
  obtain ⟨opened, spelled⟩ := List.cons.inj spelled
  obtain ⟨inside, behind, rfl, inner, closes⟩ := kinds_eq_append spelled
  obtain ⟨close, none, rfl, closed, nothing⟩ := kinds_eq_cons closes
  cases List.map_eq_nil_iff.1 nothing
  rcases List.eq_nil_or_concat' entries with rfl | ⟨earlier, ⟨key, last⟩, rfl⟩
  · cases List.map_eq_nil_iff.1 inner
    rw [value]
    simp only [opened, checkDepth_of_le fits, List.nil_append, List.cons_append, bind, Except.bind,
      Stream.next_cons, closed]
    rfl
  · rw [intercalate_entrySpellings] at inner
    obtain ⟨passed, entry, rfl, before, here⟩ := kinds_eq_append inner
    obtain ⟨name, item, rfl, named, assigned⟩ := kinds_eq_cons here
    obtain ⟨colon, item, rfl, assigns, valued⟩ := kinds_eq_cons assigned
    obtain ⟨kind, more, shape, -⟩ := exists_spelling last
    obtain ⟨first, used, rfl, -, -⟩ := kinds_eq_cons (valued.trans shape)
    simp only [List.length_append, List.length_cons, List.length_nil] at enough
    have keys' : (Assoc.keys earlier).Nodup := by
      rw [Assoc.keys, List.map_append] at keys
      exact keys.of_append_left
    have new : Assoc.contains earlier.reverse key = false := by
      have fresh := Assoc.contains_of_nodup keys
      rwa [Assoc.contains, List.any_reverse]
    have enough' : passed.length < budget := by omega
    obtain ⟨budget', left, passes⟩ :=
      value_pass_entries (fun v member => read v (List.mem_append_left _ member)) keys' fits
        opened before ⟨key, named⟩ enough'
    obtain ⟨budget', rfl⟩ : ∃ b, budget' = b + 1 := ⟨budget' - 1, by omega⟩
    have split : passed ++ name :: colon :: first :: used ++ [close] ++ rest =
        passed ++ name :: (colon :: first :: (used ++ close :: rest)) := by simp
    have last' := read (key, last) (List.mem_append_right earlier List.mem_cons_self)
    have enough'' : used.length < budget' := by omega
    rw [split, passes, members]
    simp only [named, assigns, bind, Except.bind, Stream.next_cons, last'.value_eq valued enough'',
      new, Bool.false_eq_true, if_false, closed, List.reverse_cons, List.reverse_reverse]
    rfl

/-! ### All values -/

theorem isRead_single {v : Json} {kind : TokenKind} (single : v.spelling = [kind])
    (reads : ∀ budget t s, t.kind = kind → value (budget + 1) limits depth t s = .ok (v, s)) :
    IsRead limits depth v := by
  constructor
  intro budget t used rest final spelled enough
  obtain ⟨budget, rfl⟩ := Nat.exists_eq_add_one_of_ne_zero (Nat.ne_zero_of_lt enough)
  rw [single] at spelled
  obtain ⟨here, nothing⟩ := List.cons.inj spelled
  cases List.map_eq_nil_iff.1 nothing
  exact reads budget t _ here

/-- A value in order is read from its tokens. -/
theorem isRead {v : Json} (fit : v.Fits limits depth) : IsRead limits depth v := by
  obtain ⟨distinct, fits⟩ := fit
  induction distinct generalizing depth with
  | array inside ih =>
    rename_i items
    have fits' (limited : 0 < limits.maxDepth) : nestingAll items + 1 ≤ limits.maxDepth - depth :=
      fits limited
    refine isRead_array (fun v member => ih v member fun limited => ?_) fun limited => ?_
    · have within := nestingAll_le_iff.1 (Nat.le_sub_of_add_le (fits' limited)) v member
      omega
    · have := fits' limited
      omega
  | object keys inside ih =>
    rename_i entries
    have fits' (limited : 0 < limits.maxDepth) :
        nestingEntries entries + 1 ≤ limits.maxDepth - depth := fits limited
    refine isRead_object keys (fun entry member => ih entry member fun limited => ?_)
      fun limited => ?_
    · have within := nestingEntries_le_iff.1 (Nat.le_sub_of_add_le (fits' limited)) entry member
      omega
    · have := fits' limited
      omega
  | null => exact isRead_single rfl fun _ _ _ here => by simp only [value, here]
  | bool b => cases b <;> exact isRead_single rfl fun _ _ _ here => by simp only [value, here]
  | number => exact isRead_single rfl fun _ _ _ here => by simp only [value, here]
  | string => exact isRead_single rfl fun _ _ _ here => by simp only [value, here]

/-! ### Brackets that are too deep -/

theorem opens_of_isBracket {kind : TokenKind} (bracket : kind.isBracket = true) :
    kind.opens = true := by
  cases kind <;> first | rfl | cases bracket

theorem opens_of_path {path : List Frame} {bracket : Token TokenKind}
    (opens : bracket.kind.isBracket = true) (split : t :: tokens = passed ++ bracket :: rest)
    (spelled : kinds passed = pathSpelling path) : t.kind.opens = true := by
  cases path with
  | nil =>
    cases List.map_eq_nil_iff.1 spelled
    cases split
    exact opens_of_isBracket opens
  | cons frame path =>
    cases frame <;>
    · obtain ⟨first, passed, rfl, here, -⟩ := kinds_eq_cons spelled
      cases split
      rw [here]
      rfl

/-- The bracket that is one too many is refused, whatever comes behind it. The readers call one
another twice for each bracket that is still open. -/
theorem value_of_brim {levels : Nat} {path : List Frame} (brim : Brim levels path)
    (limited : 0 < limits.maxDepth) (left : limits.maxDepth - depth = levels)
    {bracket : Token TokenKind} (opens : bracket.kind.isBracket = true)
    (split : t :: tokens = passed ++ bracket :: rest) (spelled : kinds passed = pathSpelling path)
    (enough : 2 * passed.length < budget) :
    value budget limits depth t ⟨tokens, final⟩ =
      .error ⟨.limit (.depth limits.maxDepth), bracket.span⟩ := by
  induction brim generalizing depth budget t tokens passed with
  | nil =>
    obtain ⟨budget, rfl⟩ := Nat.exists_eq_add_one_of_ne_zero (Nat.ne_zero_of_lt enough)
    cases List.map_eq_nil_iff.1 spelled
    cases split
    have refused (span : Span) := checkDepth_of_lt span limited
      (show limits.maxDepth < depth + 1 by omega)
    rw [value]
    cases kind : bracket.kind <;> rw [kind] at opens <;> cases opens <;>
      simp only [refused] <;> rfl
  | @cons levels frame path regular inner ih =>
    have fits (_ : 0 < limits.maxDepth) : depth + 1 ≤ limits.maxDepth := by omega
    have left' : limits.maxDepth - (depth + 1) = levels := by omega
    have read (v : Json) (member : v ∈ frame.values) : IsRead limits (depth + 1) v :=
      isRead ⟨regular.distinct v member, fun _ => left'.symm ▸ regular.nesting v member⟩
    obtain ⟨framed, deeper, rfl, around, within⟩ :=
      kinds_eq_append (spelled.trans (pathSpelling_cons frame path))
    obtain ⟨next, tokens', split'⟩ := List.exists_cons_of_ne_nil
      (List.append_ne_nil_of_right_ne_nil deeper (List.cons_ne_nil bracket rest))
    obtain ⟨budget, rfl⟩ := Nat.exists_eq_add_one_of_ne_zero (Nat.ne_zero_of_lt enough)
    have opens' : next.kind.opens = true := opens_of_path opens split'.symm within
    cases frame with
    | array items =>
      obtain ⟨opened, passed, rfl, here, before⟩ := kinds_eq_cons around
      simp only [List.cons_append, List.append_assoc, split'] at split
      cases split
      simp only [List.length_append, List.length_cons] at enough
      have enough' : passed.length < budget := by omega
      obtain ⟨budget', more, passes⟩ := value_pass_items read fits here before opens' enough'
      obtain ⟨budget', rfl⟩ : ∃ b, budget' = b + 1 := ⟨budget' - 1, by omega⟩
      rw [passes, elements, ih left' split'.symm within (by omega)]
      rfl
    | object entries key =>
      obtain ⟨opened, framed, rfl, here, around⟩ := kinds_eq_cons around
      obtain ⟨passed, entry, rfl, before, entered⟩ := kinds_eq_append around
      obtain ⟨name, entry, rfl, named, assigned⟩ := kinds_eq_cons entered
      obtain ⟨colon, none, rfl, assigns, nothing⟩ := kinds_eq_cons assigned
      cases List.map_eq_nil_iff.1 nothing
      simp only [List.cons_append, List.append_assoc, List.nil_append, split'] at split
      cases split
      simp only [List.length_append, List.length_cons, List.length_nil] at enough
      have enough' : passed.length < budget := by omega
      obtain ⟨budget', more, passes⟩ := value_pass_entries
        (fun entry member => read entry.2 (List.mem_map_of_mem member)) (regular.keys _ _ rfl)
        fits here before ⟨key, named⟩ enough'
      obtain ⟨budget', rfl⟩ : ∃ b, budget' = b + 1 := ⟨budget' - 1, by omega⟩
      have enough'' : 2 * deeper.length < budget' := by omega
      rw [passes, members]
      simp only [named, assigns, bind, Except.bind, Stream.next_cons,
        ih left' split'.symm within enough'']

end Json

end ScoreScript
