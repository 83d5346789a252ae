import ScoreScript.Proofs.Markup.Spelling

/-!
Document types. The reader passes one without a look at what stands in it: it counts brackets, and
the first sign that ends a document type where none is open ends it. A well-formed document type may
quote brackets and such signs, so it need not be passed as a whole. Main statements:
`skipDoctype_iff`, `counted_of_plain`.
-/

namespace ScoreScript.Markup

open Cursor

/-! ### Well-formed document types -/

/-- White space, at least one byte. -/
def IsSpace (bytes : List UInt8) : Prop :=
  IsBlank bytes ∧ bytes ≠ []

/-- Two quotes of a kind, and between them allowed bytes but no such quote. -/
def IsLiteral (allowed : UInt8 → Prop) (bytes : List UInt8) : Prop :=
  ∃ quote inner, (quote = 0x22 ∨ quote = 0x27) ∧ quote ∉ inner ∧ (∀ b ∈ inner, allowed b) ∧
    bytes = quote :: (inner ++ [quote])

/-- Where the declarations of a document type are found, if they are elsewhere. -/
inductive IsExternal (allowed : UInt8 → Prop) : List UInt8 → Prop where
  | none : IsExternal allowed []
  | system {before between literal : List UInt8} (space : IsSpace before)
    (space' : IsSpace between) (quoted : IsLiteral allowed literal) :
    IsExternal allowed (before ++ (utf8 "SYSTEM" ++ (between ++ literal)))
  | published {before between name between' literal : List UInt8} (space : IsSpace before)
    (space' : IsSpace between) (named : IsLiteral allowed name) (space'' : IsSpace between')
    (quoted : IsLiteral allowed literal) :
    IsExternal allowed
      (before ++ (utf8 "PUBLIC" ++ (between ++ (name ++ (between' ++ literal)))))

/-- Declarations: signs other than quotes and brackets, literals, comments and instructions. -/
inductive IsSubset (allowed : UInt8 → Prop) : List UInt8 → Prop where
  | nil : IsSubset allowed []
  | sign {b : UInt8} {rest : List UInt8} (plain : b ∉ [0x22, 0x27, 0x5B, 0x5D])
    (later : IsSubset allowed rest) : IsSubset allowed (b :: rest)
  | literal {bytes rest : List UInt8} (quoted : IsLiteral allowed bytes)
    (later : IsSubset allowed rest) : IsSubset allowed (bytes ++ rest)
  | comment {between bytes rest : List UInt8} (region : IsRegion "<!--" "-->" between bytes)
    (inner : ∀ b ∈ between, allowed b) (later : IsSubset allowed rest) :
    IsSubset allowed (bytes ++ rest)
  | instruction {between bytes rest : List UInt8} (region : IsRegion "<?" "?>" between bytes)
    (inner : ∀ b ∈ between, allowed b) (later : IsSubset allowed rest) :
    IsSubset allowed (bytes ++ rest)

/-- A document type: the name of the root element, perhaps a reference to declarations, and perhaps
declarations in brackets. It is told which bytes may be quoted before the brackets, and which may be
quoted, in comments and in instructions within. -/
inductive DoctypeWith (outside inside : UInt8 → Prop) : List UInt8 → Prop where
  | plain {before external blank : List UInt8} {name : String} (space : IsSpace before)
    (named : IsName name) (reference : IsExternal outside external) (space' : IsBlank blank) :
    DoctypeWith outside inside
      (utf8 "<!DOCTYPE" ++ (before ++ (utf8 name ++ (external ++ (blank ++ [0x3E])))))
  | subset {before external blank declared blank' : List UInt8} {name : String}
    (space : IsSpace before) (named : IsName name) (reference : IsExternal outside external)
    (space' : IsBlank blank) (declarations : IsSubset inside declared)
    (space'' : IsBlank blank') :
    DoctypeWith outside inside
      (utf8 "<!DOCTYPE" ++ (before ++ (utf8 name ++ (external ++ (blank ++
        0x5B :: (declared ++ 0x5D :: (blank' ++ [0x3E])))))))

/-- A document type with any bytes in its literals, comments and instructions. -/
def IsDoctype : List UInt8 → Prop :=
  DoctypeWith (fun _ => True) (fun _ => True)

theorem IsLiteral.mono {allowed allowed' : UInt8 → Prop} (more : ∀ b, allowed b → allowed' b)
    {bytes : List UInt8} (quoted : IsLiteral allowed bytes) : IsLiteral allowed' bytes := by
  obtain ⟨quote, inner, isQuote, closes, within, rfl⟩ := quoted
  exact ⟨quote, inner, isQuote, closes, fun b member => more b (within b member), rfl⟩

theorem IsExternal.mono {allowed allowed' : UInt8 → Prop} (more : ∀ b, allowed b → allowed' b)
    {bytes : List UInt8} (reference : IsExternal allowed bytes) : IsExternal allowed' bytes := by
  cases reference with
  | none => exact .none
  | system space space' quoted => exact .system space space' (quoted.mono more)
  | published space space' named space'' quoted =>
    exact .published space space' (named.mono more) space'' (quoted.mono more)

theorem IsSubset.mono {allowed allowed' : UInt8 → Prop} (more : ∀ b, allowed b → allowed' b)
    {bytes : List UInt8} (declarations : IsSubset allowed bytes) : IsSubset allowed' bytes := by
  induction declarations with
  | nil => exact .nil
  | sign plain _ ih => exact .sign plain ih
  | literal quoted _ ih => exact .literal (quoted.mono more) ih
  | comment region inner _ ih =>
    exact .comment region (fun b member => more b (inner b member)) ih
  | instruction region inner _ ih =>
    exact .instruction region (fun b member => more b (inner b member)) ih

theorem IsSubset.signs {allowed : UInt8 → Prop} {bytes rest : List UInt8}
    (plain : ∀ b ∈ bytes, b ∉ [0x22, 0x27, 0x5B, 0x5D]) (later : IsSubset allowed rest) :
    IsSubset allowed (bytes ++ rest) := by
  induction bytes with
  | nil => exact later
  | cons b bytes ih =>
    obtain ⟨here, others⟩ := List.forall_mem_cons.1 plain
    exact .sign here (ih others)

theorem DoctypeWith.exists_append {outside inside : UInt8 → Prop} {type : List UInt8}
    (declared : DoctypeWith outside inside type) : ∃ more, type = utf8 "<!DOCTYPE" ++ more := by
  cases declared with
  | plain => exact ⟨_, rfl⟩
  | subset => exact ⟨_, rfl⟩

/-- Whatever is quoted in it, a document type is one. -/
theorem DoctypeWith.isDoctype {outside inside : UInt8 → Prop} {type : List UInt8}
    (declared : DoctypeWith outside inside type) : IsDoctype type := by
  cases declared with
  | plain space named reference space' =>
    exact .plain space named (reference.mono fun _ _ => trivial) space'
  | subset space named reference space' declarations space'' =>
    exact .subset space named (reference.mono fun _ _ => trivial) space'
      (declarations.mono fun _ _ => trivial) space''

/-! ### Counting brackets -/

/-- How many brackets are open after one more byte. -/
def bracket (opened : Nat) (b : UInt8) : Nat :=
  if b = 0x5B then opened + 1 else if b = 0x5D then opened - 1 else opened

/-- How many brackets are open after some bytes. A bracket is one wherever it stands, and one that
closes none does not count. -/
def brackets (opened : Nat) (bytes : List UInt8) : Nat :=
  bytes.foldl bracket opened

/-- The bytes end with the sign that ends a document type, and it is the only one of its kind before
which as many brackets are closed as were opened. -/
def CountedFrom (opened : Nat) (type : List UInt8) : Prop :=
  ∃ inner, type = inner ++ [0x3E] ∧ brackets opened inner = 0 ∧
    ∀ before after, inner = before ++ 0x3E :: after → brackets opened before ≠ 0

theorem doctypeLength?_cons (opened passed : Nat) (b : UInt8) (rest : List UInt8) :
    doctypeLength? opened passed (b :: rest) =
      if b = 0x3E ∧ opened = 0 then some (passed + 1)
      else doctypeLength? (bracket opened b) (passed + 1) rest := by
  have byte {char : Char} (here : Char.ofUInt8 b = char) : b = char.toUInt8 := by
    rw [← here, toUInt8_ofUInt8]
  rw [doctypeLength?]
  split
  · rename_i here
    obtain rfl : b = 0x5B := byte here
    rfl
  · rename_i here
    obtain rfl : b = 0x5D := byte here
    rfl
  · rename_i here
    obtain rfl : b = 0x3E := byte here
    simp only [true_and]
    rfl
  · rename_i noOpening noClosing noEnd
    have plain : b ≠ 0x5B ∧ b ≠ 0x5D ∧ b ≠ 0x3E := by
      refine ⟨?_, ?_, ?_⟩
      · rintro rfl
        exact noOpening rfl
      · rintro rfl
        exact noClosing rfl
      · rintro rfl
        exact noEnd rfl
    rw [if_neg (fun last => plain.2.2 last.1), bracket, if_neg plain.1, if_neg plain.2.1]

theorem doctypeLength?_append {opened passed total : Nat} {bytes : List UInt8}
    (found : doctypeLength? opened passed bytes = some total) (rest : List UInt8) :
    doctypeLength? opened passed (bytes ++ rest) = some total := by
  induction bytes generalizing opened passed with
  | nil => cases found
  | cons b bytes ih =>
    rw [List.cons_append, doctypeLength?_cons]
    rw [doctypeLength?_cons] at found
    split at found
    · rename_i last
      rw [if_pos last, found]
    · rename_i more
      rw [if_neg more, ih found]

theorem countedFrom_cons {opened : Nat} {b : UInt8} {rest : List UInt8}
    (more : ¬(b = 0x3E ∧ opened = 0)) :
    CountedFrom opened (b :: rest) ↔ CountedFrom (bracket opened b) rest := by
  constructor
  · rintro ⟨inner, split, closed, within⟩
    cases inner with
    | nil =>
      obtain ⟨rfl, rfl⟩ := List.cons.inj split
      exact absurd ⟨rfl, closed⟩ more
    | cons first inner =>
      obtain ⟨rfl, rfl⟩ := List.cons.inj split
      exact ⟨inner, rfl, closed, fun before after parts =>
        within (b :: before) after (congrArg _ parts)⟩
  · rintro ⟨inner, rfl, closed, within⟩
    refine ⟨b :: inner, rfl, closed, fun before after parts => ?_⟩
    cases before with
    | nil =>
      obtain ⟨rfl, -⟩ := List.cons.inj parts
      exact fun none => more ⟨rfl, none⟩
    | cons first before =>
      obtain ⟨rfl, later⟩ := List.cons.inj parts
      exact within before after later

/-- The document type is passed as a whole, and nothing more, just in case it is counted. -/
theorem doctypeLength?_eq_some_iff {opened : Nat} (passed : Nat) {type : List UInt8} :
    doctypeLength? opened passed type = some (passed + type.length) ↔ CountedFrom opened type := by
  induction type generalizing opened passed with
  | nil =>
    refine iff_of_false nofun ?_
    rintro ⟨inner, split, -⟩
    simp at split
  | cons b rest ih =>
    rw [doctypeLength?_cons]
    by_cases last : b = 0x3E ∧ opened = 0
    · obtain ⟨rfl, rfl⟩ := last
      rw [if_pos ⟨rfl, rfl⟩, Option.some_inj, List.length_cons]
      constructor
      · intro one
        have none : rest = [] := List.eq_nil_of_length_eq_zero (by omega)
        subst none
        exact ⟨[], rfl, rfl, fun before after parts => by simp at parts⟩
      · rintro ⟨inner, split, closed, within⟩
        cases inner with
        | nil =>
          obtain ⟨-, rfl⟩ := List.cons.inj split
          rfl
        | cons first inner =>
          obtain ⟨rfl, -⟩ := List.cons.inj split
          exact absurd rfl (within [] inner rfl)
    · rw [if_neg last, countedFrom_cons last, ← ih (passed + 1), List.length_cons,
        Nat.add_right_comm, Nat.add_assoc]

/-- The document type is passed as a whole, and nothing more, just in case it is counted. -/
theorem skipDoctype_iff {type : List UInt8} :
    (∀ rest p, skipDoctype ⟨type ++ rest, p⟩ = .ok ⟨rest, p.after type⟩) ↔ CountedFrom 0 type := by
  rw [← doctypeLength?_eq_some_iff 0, Nat.zero_add]
  constructor
  · intro passed
    have alone := passed [] .start
    rw [List.append_nil, skipDoctype] at alone
    cases found : doctypeLength? 0 0 type with
    | none =>
      rw [found] at alone
      cases alone
    | some count =>
      -- one more byte tells how many were passed
      have more := passed [0x3E] .start
      rw [skipDoctype, doctypeLength?_append found] at more
      have left := congrArg (fun c : Cursor => c.rest.length) (Except.ok.inj more)
      simp only [length_advanceBy, List.length_append, List.length_singleton] at left
      have all : count = type.length := by omega
      rw [all]
  · intro found rest p
    rw [skipDoctype, doctypeLength?_append found]
    exact congrArg _ (advanceBy_append type rfl)

/-! ### What is quoted -/

/-- Neither of the two brackets. -/
def NoBracket (b : UInt8) : Prop :=
  b ≠ 0x5B ∧ b ≠ 0x5D

/-- Neither a bracket nor the sign that ends a document type. -/
def NoMark (b : UInt8) : Prop :=
  NoBracket b ∧ b ≠ 0x3E

instance : DecidablePred NoBracket :=
  fun b => inferInstanceAs (Decidable (b ≠ 0x5B ∧ b ≠ 0x5D))

instance : DecidablePred NoMark :=
  fun b => inferInstanceAs (Decidable (NoBracket b ∧ b ≠ 0x3E))

/-- Bytes that are no brackets are passed, if a bracket is open or none of them is the end. -/
theorem countedFrom_append {opened : Nat} {bytes rest : List UInt8}
    (quiet : ∀ b ∈ bytes, NoBracket b ∧ ¬(b = 0x3E ∧ opened = 0)) :
    CountedFrom opened (bytes ++ rest) ↔ CountedFrom opened rest := by
  induction bytes with
  | nil => rfl
  | cons b bytes ih =>
    obtain ⟨⟨plain, noEnd⟩, later⟩ := List.forall_mem_cons.1 quiet
    rw [List.cons_append, countedFrom_cons noEnd, bracket, if_neg plain.1, if_neg plain.2,
      ih later]

theorem countedFrom_append_noMark {opened : Nat} {bytes rest : List UInt8}
    (quiet : ∀ b ∈ bytes, NoMark b) :
    CountedFrom opened (bytes ++ rest) ↔ CountedFrom opened rest :=
  countedFrom_append fun b member => ⟨(quiet b member).1, fun last => (quiet b member).2 last.1⟩

theorem noMark_of {p : UInt8 → Bool} (none : p 0x5B = false ∧ p 0x5D = false ∧ p 0x3E = false)
    {b : UInt8} (holds : p b = true) : NoMark b := by
  refine ⟨⟨?_, ?_⟩, ?_⟩
  · rintro rfl
    exact absurd none.1 (Bool.not_eq_false _ ▸ holds)
  · rintro rfl
    exact absurd none.2.1 (Bool.not_eq_false _ ▸ holds)
  · rintro rfl
    exact absurd none.2.2 (Bool.not_eq_false _ ▸ holds)

/-- What is so of each byte of a text that is written out is found by going through its bytes. -/
theorem forall_mem_of_all {allowed : UInt8 → Prop} [DecidablePred allowed] {bytes : List UInt8}
    (all : bytes.all (fun b => decide (allowed b)) = true) : ∀ b ∈ bytes, allowed b :=
  fun b member => of_decide_eq_true (List.all_eq_true.1 all b member)

theorem IsBlank.noMark {bytes : List UInt8} (blank : IsBlank bytes) : ∀ b ∈ bytes, NoMark b :=
  fun b member => noMark_of (by decide) (blank b member)

theorem IsName.noMark {name : String} (named : IsName name) : ∀ b ∈ utf8 name, NoMark b :=
  fun b member => noMark_of (by decide) (named.bytes b member)

theorem IsLiteral.forall_mem {allowed : UInt8 → Prop} {bytes : List UInt8}
    (quoted : IsLiteral allowed bytes) (quotes : allowed 0x22 ∧ allowed 0x27) :
    ∀ b ∈ bytes, allowed b := by
  obtain ⟨quote, inner, isQuote, -, within, rfl⟩ := quoted
  have ends : allowed quote := by
    rcases isQuote with rfl | rfl
    · exact quotes.1
    · exact quotes.2
  intro b member
  rcases List.mem_cons.1 member with rfl | later
  · exact ends
  · rcases List.mem_append.1 later with inside | last
    · exact within b inside
    · exact List.mem_singleton.1 last ▸ ends

theorem IsExternal.noMark {bytes : List UInt8} (reference : IsExternal NoMark bytes) :
    ∀ b ∈ bytes, NoMark b := by
  cases reference with
  | none => nofun
  | system space space' quoted =>
    have word : ∀ b ∈ utf8 "SYSTEM", NoMark b := forall_mem_of_all (by decide)
    have literal := quoted.forall_mem (by decide)
    simp only [List.forall_mem_append]
    exact ⟨space.1.noMark, word, space'.1.noMark, literal⟩
  | published space space' named space'' quoted =>
    have word : ∀ b ∈ utf8 "PUBLIC", NoMark b := forall_mem_of_all (by decide)
    have literal := quoted.forall_mem (by decide)
    have name := named.forall_mem (by decide)
    simp only [List.forall_mem_append]
    exact ⟨space.1.noMark, word, space'.1.noMark, name, space''.1.noMark, literal⟩

theorem IsRegion.forall_mem {allowed : UInt8 → Prop} {opening closing : String}
    {between bytes : List UInt8} (region : IsRegion opening closing between bytes)
    (marks : ∀ b ∈ utf8 opening ++ utf8 closing, allowed b) (inner : ∀ b ∈ between, allowed b) :
    ∀ b ∈ bytes, allowed b := by
  rw [List.forall_mem_append] at marks
  rw [region.1]
  simp only [List.forall_mem_append]
  exact ⟨marks.1, inner, marks.2⟩

theorem IsSubset.noBracket {bytes : List UInt8} (declarations : IsSubset NoBracket bytes) :
    ∀ b ∈ bytes, NoBracket b := by
  induction declarations with
  | nil => nofun
  | sign plain _ ih =>
    simp only [List.mem_cons, List.not_mem_nil, not_or] at plain
    exact List.forall_mem_cons.2 ⟨⟨plain.2.2.1, plain.2.2.2.1⟩, ih⟩
  | literal quoted _ ih =>
    exact List.forall_mem_append.2 ⟨quoted.forall_mem (by decide), ih⟩
  | comment region inner _ ih =>
    exact List.forall_mem_append.2 ⟨region.forall_mem (forall_mem_of_all (by decide)) inner, ih⟩
  | instruction region inner _ ih =>
    exact List.forall_mem_append.2 ⟨region.forall_mem (forall_mem_of_all (by decide)) inner, ih⟩

/-- Where no bracket is quoted and, outside of the brackets, no sign that ends a document type, the
document type is counted. -/
theorem counted_of_plain {type : List UInt8} (plain : DoctypeWith NoMark NoBracket type) :
    CountedFrom 0 type := by
  have mark : ∀ b ∈ utf8 "<!DOCTYPE", NoMark b := forall_mem_of_all (by decide)
  have last : CountedFrom 0 [0x3E] := ⟨[], rfl, rfl, fun before after parts => by simp at parts⟩
  cases plain with
  | plain space named reference space' =>
    rw [countedFrom_append_noMark mark, countedFrom_append_noMark space.1.noMark,
      countedFrom_append_noMark named.noMark, countedFrom_append_noMark reference.noMark,
      countedFrom_append_noMark space'.noMark]
    exact last
  | subset space named reference space' declarations space'' =>
    -- between the brackets one is open, so a sign there does not end the document type
    have inner (b : UInt8) (plain : NoBracket b) : NoBracket b ∧ ¬(b = 0x3E ∧ 1 = 0) :=
      ⟨plain, fun both => nomatch both.2⟩
    rw [countedFrom_append_noMark mark, countedFrom_append_noMark space.1.noMark,
      countedFrom_append_noMark named.noMark, countedFrom_append_noMark reference.noMark,
      countedFrom_append_noMark space'.noMark, countedFrom_cons (by decide)]
    have opened : bracket 0 0x5B = 1 := rfl
    have closed : bracket 1 0x5D = 0 := rfl
    rw [opened, countedFrom_append fun b member => inner b (declarations.noBracket b member),
      countedFrom_cons (by decide), closed, countedFrom_append_noMark space''.noMark]
    exact last

end ScoreScript.Markup
