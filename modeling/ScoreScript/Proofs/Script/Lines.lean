import ScoreScript.Proofs.Script.Phrase
import ScoreScript.Translation
import ScoreScript.Proofs.Script.Reading

/-!
Statements that are written line by line, four columns further to the right for each block. A
statement is passed as its tokens at any depth of blocks, and what is written at a depth is put
together from statements of one line and of a line with a block below it.
-/

namespace ScoreScript

theorem Element.utf8_blockIndent (depth : Nat) :
    utf8 (blockIndent depth) = List.replicate (4 * depth) 0x20 := by
  rw [blockIndent, utf8_ofList]
  induction 4 * depth with
  | zero => rfl
  | succ n ih =>
    have space : String.utf8EncodeChar ' ' = [0x20] := encode_of_ascii (by decide)
    rw [List.replicate_succ, List.flatMap_cons, ih, List.replicate_succ, space]
    rfl

namespace Script.Layout

open Element (blockIndent utf8_blockIndent)

/-- The text of a statement at each depth, without the indentation of its first line, is passed as
tokens of these kinds. -/
structure IsLines (line : Nat → String) (kinds : List TokenKind) : Prop where
  opens : ∀ depth, ∃ b more, utf8 (line depth) = b :: more ∧ isTokenStart b = true
  lexed : ∀ (depth : Nat) (before : List TokenKind) (rest : List UInt8) (s : Layout),
    InLine (levelsAt depth) 0 before (utf8 (line depth) ++ rest) s →
      Reaches s (Between depth (before ++ kinds) rest)

variable {text : String} {kinds : List TokenKind}

/-- A phrase alone on a line. -/
theorem IsLines.of_phrase (h : IsPhrase text kinds) :
    IsLines (fun _ => text ++ "\n") (kinds ++ [.newline]) := by
  obtain ⟨b, more, bytes, start⟩ := h.opens
  refine ⟨fun _ => ⟨b, _, by rw [utf8_append, bytes]; rfl, (startsPhrase_cases start).1⟩, ?_⟩
  intro depth before rest s line
  have newline : utf8 "\n" = [0x0A] := rfl
  obtain ⟨front, last, same, solid⟩ := h.last
  rw [utf8_append, newline, List.append_assoc] at line
  refine (h.passes 0x0A rest rfl _ _ _ s line).trans fun t passed => ?_
  rw [h.closed, same, ← List.append_assoc] at passed
  refine (passed.newline solid).trans fun u ended => ⟨u, rfl, ?_⟩
  rw [same]
  simpa using Between.of_atLine ended

section

variable {ι : Type} {line : ι → Nat → String} {kindsOf : ι → List TokenKind}

/-- The text of statements that stand below each other at a depth. -/
def blockText (line : ι → Nat → String) (depth : Nat) (items : List ι) : String :=
  String.join (items.map fun item => blockIndent depth ++ line item depth)

theorem blockText_cons (depth : Nat) (item : ι) (more : List ι) :
    blockText line depth (item :: more) =
      blockIndent depth ++ line item depth ++ blockText line depth more := by
  rw [blockText, List.map_cons, String.join_cons, blockText]

/-- The statements of a block that has begun. -/
theorem lexed_blockText {depth : Nat} {rest : List UInt8} :
    ∀ {items : List ι} {kinds : List TokenKind} {s : Layout},
      (∀ item ∈ items, IsLines (line item) (kindsOf item)) →
      Between depth kinds (utf8 (blockText line depth items) ++ rest) s →
      Reaches s (Between depth (kinds ++ items.flatMap kindsOf) rest)
  | [], kinds, s, _, h => ⟨s, rfl, by rwa [List.flatMap_nil, List.append_nil]⟩
  | item :: more, kinds, s, all, h => by
    obtain ⟨here, others⟩ := List.forall_mem_cons.1 all
    obtain ⟨b, bytes, first, start⟩ := here.opens depth
    rw [blockText_cons, utf8_append, utf8_append, utf8_blockIndent, first] at h
    simp only [List.append_assoc, List.cons_append] at h
    refine (h.enter start).trans fun t inLine => ?_
    rw [← List.cons_append, ← first] at inLine
    refine (here.lexed depth _ _ t inLine).trans fun u later => ?_
    rw [List.flatMap_cons, ← List.append_assoc]
    exact lexed_blockText others later

/-- A line that a block belongs to, and the block below it. -/
theorem IsLines.of_block (head : IsPhrase text kinds) {items : List ι} (inner : items ≠ [])
    (all : ∀ item ∈ items, IsLines (line item) (kindsOf item)) :
    IsLines (fun depth => text ++ ":\n" ++ blockText line (depth + 1) items)
      (kinds ++ (.op .colon :: .newline :: .indent :: (items.flatMap kindsOf ++ [.dedent]))) := by
  obtain ⟨b, more, bytes, start⟩ := head.opens
  refine ⟨fun depth => ⟨b, _, by rw [utf8_append, utf8_append, bytes]; rfl,
    (startsPhrase_cases start).1⟩, ?_⟩
  intro depth before rest s inLine
  obtain ⟨first, others, rfl⟩ := List.exists_cons_of_ne_nil inner
  obtain ⟨here, later⟩ := List.forall_mem_cons.1 all
  obtain ⟨c, letters, begins, solid⟩ := here.opens (depth + 1)
  have ending : utf8 ":\n" = utf8 ":" ++ [0x0A] := rfl
  -- the line that the block belongs to, then its end
  have passes : Passes (utf8 text ++ utf8 ":") (0x0A :: (List.replicate (4 * (depth + 1)) 0x20 ++
      c :: (letters ++ (utf8 (blockText line (depth + 1) others) ++ rest))))
      (kinds ++ [.op .colon]) :=
    Passes.append (head.passes 0x3A _ rfl) (.of_token (isToken_colon (by decide)))
  have bytes_eq : utf8 (text ++ ":\n" ++ blockText line (depth + 1) (first :: others)) ++ rest =
      utf8 text ++ utf8 ":" ++ 0x0A :: (List.replicate (4 * (depth + 1)) 0x20 ++
        c :: (letters ++ (utf8 (blockText line (depth + 1) others) ++ rest))) := by
    rw [blockText_cons]
    simp [utf8_append, ending, utf8_blockIndent, begins]
  rw [bytes_eq] at inLine
  refine (passes _ _ _ s inLine).trans fun t passed => ?_
  rw [List.foldl_append, head.closed, ← List.append_assoc] at passed
  refine (passed.newline rfl).trans fun u ended => ?_
  -- the first line of the block, then the others
  refine (ended.deeper solid).trans fun v inBlock => ?_
  rw [← List.cons_append, ← begins] at inBlock
  refine (here.lexed (depth + 1) _ _ v inBlock).trans fun w next => ?_
  refine (lexed_blockText later next).trans fun x last => ⟨x, rfl, ?_⟩
  simpa using last.leave

/-- The tokens of a text that consists of statements. -/
theorem tokens_blockText {items : List ι}
    (all : ∀ item ∈ items, IsLines (line item) (kindsOf item)) :
    ∃ tokens, Script.tokens (utf8 (blockText line 0 items)) = .ok tokens ∧
      tokens.map (·.kind) = items.flatMap kindsOf ++ [.eof] := by
  have before : Between 0 [] (utf8 (blockText line 0 items) ++ [])
      (Layout.start (utf8 (blockText line 0 items))) :=
    .of_atLine ⟨rfl, rfl, rfl, rfl, (List.append_nil _).symm, rfl⟩
  obtain ⟨t, same, lexed⟩ := lexed_blockText all before
  rw [List.nil_append] at lexed
  rw [Script.tokens, same]
  exact lexed.run_end

end

/-- The tokens of a phrase alone on a line, which is the whole text. -/
theorem tokens_line (h : IsPhrase text kinds) :
    ∃ tokens, Script.tokens (utf8 (text ++ "\n")) = .ok tokens ∧
      tokens.map (·.kind) = kinds ++ [.newline] ++ [.eof] := by
  have only : ∀ item ∈ [()], IsLines (fun _ => text ++ "\n") (kinds ++ [.newline]) :=
    fun _ _ => .of_phrase h
  have whole : blockText (fun (_ : Unit) (_ : Nat) => text ++ "\n") 0 [()] = text ++ "\n" := by
    rw [blockText_cons]
    exact String.append_empty
  have lexed := tokens_blockText only
  rwa [whole, List.flatMap_singleton] at lexed

/-- The tokens of a phrase that is the whole text, where nothing ends the line. -/
theorem tokens_phrase (h : IsPhrase text kinds) (ended : Passes (utf8 text) [] kinds) :
    ∃ tokens, Script.tokens (utf8 text) = .ok tokens ∧
      tokens.map (·.kind) = kinds ++ [.newline] ++ [.eof] := by
  obtain ⟨b, more, bytes, start⟩ := h.opens
  obtain ⟨front, last, same, solid⟩ := h.last
  have before : Between 0 [] (List.replicate (4 * 0) 0x20 ++ b :: more)
      (Layout.start (utf8 text)) :=
    .of_atLine ⟨rfl, rfl, rfl, rfl, bytes, rfl⟩
  have read : Reaches (Layout.start (utf8 text)) (InLine [] 0 kinds []) := by
    refine (before.enter (startsPhrase_cases start).1).trans fun t inLine => ?_
    rw [← bytes, ← List.append_nil (utf8 text)] at inLine
    have passed := ended _ _ _ t inLine
    rwa [h.closed, List.nil_append] at passed
  obtain ⟨t, run, inLine⟩ := read
  rw [same] at inLine
  obtain ⟨tokens, lexed, read⟩ := inLine.run_end solid
  rw [Script.tokens, run]
  refine ⟨tokens, lexed, read.trans ?_⟩
  rw [same]
  simp

end Script.Layout

end ScoreScript

/-!
Series of items with commas between them. A rule adds one item after the other to what was read
before; what the whole series comes to is put together from what each item adds (`Rule.Adds`).
-/

namespace ScoreScript.Script.Rule

open Reads

variable {α : Type} {n : Nesting} {closing : Operator} {add : α → Rule α}

/-- What may follow an item of a series: the next comma, or the end of the series. -/
def followsItem (closing : Operator) (kind : TokenKind) : Prop :=
  kind = .op .comma ∨ kind = .op closing

/-- Items of these kinds lead, each added to what was read before, from something with `P` to
something with `Q`. -/
inductive Adds (n : Nesting) (closing : Operator) (add : α → Rule α) :
    List (List TokenKind) → (α → Prop) → (α → Prop) → Prop where
  | nil {P : α → Prop} : Adds n closing add [] P P
  | cons {kinds : List TokenKind} {more : List (List TokenKind)} {P Q R : α → Prop}
      (opens : kinds.head?.any (Mark.ofKind? · != some (.op closing)) = true)
      (one : ∀ a, P a → ∀ last rest, followsItem closing last →
        Reads n (add a) kinds (last :: rest) Q)
      (later : Adds n closing add more Q R) : Adds n closing add (kinds :: more) P R

/-- The items after the first one, each after a comma. -/
def furtherKinds (more : List (List TokenKind)) : List TokenKind :=
  more.flatMap (.op .comma :: ·)

theorem intercalate_eq_furtherKinds (first : List TokenKind) :
    ∀ more : List (List TokenKind),
      [TokenKind.op .comma].intercalate (first :: more) = first ++ furtherKinds more
  | [] => by simp [furtherKinds]
  | next :: more => by
    rw [List.intercalate_cons_cons, intercalate_eq_furtherKinds next more, furtherKinds,
      furtherKinds, List.flatMap_cons, List.append_assoc]
    rfl

theorem length_le_furtherKinds {more : List (List TokenKind)} {kinds : List TokenKind}
    (member : kinds ∈ more) : kinds.length ≤ (furtherKinds more).length := by
  have part : (.op .comma :: kinds : List TokenKind).Sublist (furtherKinds more) :=
    List.sublist_flatten_of_mem (List.mem_map_of_mem member)
  exact Nat.le_of_succ_le part.length_le

/-- No item is longer than the series. -/
theorem length_le_intercalate {pieces : List (List TokenKind)} {kinds : List TokenKind}
    (member : kinds ∈ pieces) :
    kinds.length ≤ ([TokenKind.op .comma].intercalate pieces).length := by
  cases pieces with
  | nil => cases member
  | cons first more =>
    rw [intercalate_eq_furtherKinds, List.length_append]
    rcases List.mem_cons.1 member with rfl | later
    · omega
    · have := length_le_furtherKinds later
      omega

/-- What follows an item is the comma before the next one, a last comma, or the end. -/
theorem exists_follower {comma : List TokenKind} (noMore : comma = [] ∨ comma = [.op .comma])
    (more : List (List TokenKind)) (rest : List TokenKind) :
    ∃ last tail, furtherKinds more ++ comma ++ .op closing :: rest = last :: tail ∧
      followsItem closing last := by
  cases more with
  | nil =>
    rcases noMore with rfl | rfl
    · exact ⟨_, _, rfl, .inr rfl⟩
    · exact ⟨_, _, rfl, .inl rfl⟩
  | cons next more => exact ⟨_, _, rfl, .inl rfl⟩

namespace Adds

variable {pieces pieces' : List (List TokenKind)} {P Q R : α → Prop}

theorem append (h : Adds n closing add pieces P Q) (h' : Adds n closing add pieces' Q R) :
    Adds n closing add (pieces ++ pieces') P R := by
  induction h with
  | nil => exact h'
  | cons opens one _ ih => exact .cons opens one (ih h')

/-- Each item adds to what holds of the items before it. -/
theorem of_forall {ι : Type} {kindsOf : ι → List TokenKind} (Holds : List ι → α → Prop) :
    ∀ (before items : List ι),
      (∀ item ∈ items, (kindsOf item).head?.any (Mark.ofKind? · != some (.op closing)) = true) →
      (∀ front item back, items = front ++ item :: back → ∀ a, Holds (before ++ front) a →
        ∀ last rest, followsItem closing last →
          Reads n (add a) (kindsOf item) (last :: rest) (Holds (before ++ front ++ [item]))) →
      Adds n closing add (items.map kindsOf) (Holds before) (Holds (before ++ items))
  | before, [], _, _ => by
    rw [List.append_nil]
    exact .nil
  | before, item :: more, opens, one => by
    obtain ⟨here, others⟩ := List.forall_mem_cons.1 opens
    have first := one [] item more rfl
    have later := of_forall Holds (before ++ [item]) more others fun front next back split => by
      have next := one (item :: front) next back (by rw [split]; rfl)
      rwa [← List.singleton_append, ← List.append_assoc] at next
    rw [List.append_nil] at first
    rw [List.append_assoc] at later
    exact .cons here first later

/-- Further items after commas, the last of which need not have an item behind it. -/
theorem addFurther (h : Adds n closing add pieces P Q) {comma : List TokenKind}
    (noMore : comma = [] ∨ comma = [.op .comma]) (other : closing ≠ .comma)
    (rest : List TokenKind) {a : α} (holds : P a) :
    Reads n (Rule.addFurther (isNext (.op closing)) add a) (furtherKinds pieces ++ comma)
      (.op closing :: rest) Q := by
  induction h generalizing a with
  | nil =>
    unfold Rule.addFurther
    refine loop_stop ?_ holds
    rcases noMore with rfl | rfl
    · exact .bind_accept_other (.op closing) rfl (by simpa [Mark.ofKind?] using other) (.pure rfl)
    · refine .bind_accept rfl (.bind_isNext (.op closing) rfl ?_)
      rw [Mark.ofKind?, beq_self_eq_true]
      exact .pure rfl
  | @cons kinds more P Q R opens one later ih =>
    obtain ⟨kind, tail, rfl⟩ : ∃ kind tail, kinds = kind :: tail := by
      cases kinds with
      | nil => cases opens
      | cons kind tail => exact ⟨kind, tail, rfl⟩
    obtain ⟨last, behind, ahead, follows⟩ := exists_follower noMore more rest
    have noEnd : (Mark.ofKind? kind == some (.op closing)) = false := by
      simpa using opens
    rw [furtherKinds, List.flatMap_cons, ← furtherKinds, List.append_assoc]
    refine loop_more _ _ (by simp) (Q := Q) (.bind_accept rfl (.bind_isNext kind rfl ?_))
      fun b holds => ih holds
    rw [noEnd, ahead]
    exact (one a holds last behind follows).map fun b holds => ⟨b, rfl, holds⟩

/-- A series from its first item on. -/
theorem addItems (h : Adds n closing add pieces P Q) (other : closing ≠ .comma)
    (rest : List TokenKind) {a : α} (holds : P a) :
    Reads n (Rule.addItems (isNext (.op closing)) add a)
      ([TokenKind.op .comma].intercalate pieces) (.op closing :: rest) Q := by
  unfold Rule.addItems
  cases h with
  | nil =>
    refine .bind_isNext (.op closing) rfl ?_
    rw [Mark.ofKind?, beq_self_eq_true]
    exact .pure holds
  | @cons kinds more _ Q _ opens one later =>
    obtain ⟨kind, tail, rfl⟩ : ∃ kind tail, kinds = kind :: tail := by
      cases kinds with
      | nil => cases opens
      | cons kind tail => exact ⟨kind, tail, rfl⟩
    obtain ⟨last, behind, ahead, follows⟩ := exists_follower (.inl rfl) more rest
    have noEnd : (Mark.ofKind? kind == some (.op closing)) = false := by
      simpa using opens
    have further (b : α) (holds : Q b) := later.addFurther (.inl rfl) other rest holds
    simp only [List.append_nil] at ahead further
    rw [intercalate_eq_furtherKinds]
    refine .bind_isNext kind rfl ?_
    rw [noEnd]
    refine .bind (P := Q) ?_ further
    rw [ahead]
    exact one a holds last behind follows

end Adds

end ScoreScript.Script.Rule
