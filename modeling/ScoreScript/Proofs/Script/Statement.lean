import ScoreScript.Proofs.Script.Expression
import ScoreScript.Proofs.Script.Operand

/-!
Statements that are read back. Tokens are a statement if the rules for statements that come back
often enough read them as one (`IsStatement`). Statements are put together from operands, from items
of `with` statements, and from the statements of a block; put together, they are a script.
-/

namespace ScoreScript.Script

namespace Grammar

open Rule

variable {hole : Nat → String → Except Error Expr} {kinds : List TokenKind} {P : Expr → Prop}

/-- The tokens are read as one statement. -/
structure IsStatement (hole : Nat → String → Except Error Expr) (kinds : List TokenKind)
    (Q : Stmt → Prop) : Prop where
  begins : kinds.head?.any startsStatement = true
  reads : ∀ {n : Nesting} {size count : Nat} {rest : List TokenKind}, n.limit = 0 →
    kinds.length ≤ size → kinds.length ≤ count →
    Reads n (statementWithin (within hole size) count) kinds rest fun body => ∃ s, body = [s] ∧ Q s

/-- The tokens are read as an item of a `with` statement where another one or the block follows. -/
structure IsItem (hole : Nat → String → Except Error Expr) (kinds : List TokenKind)
    (Item : WithItem → Prop) : Prop where
  reads : ∀ {n : Nesting} {size : Nat} {last : TokenKind} {rest : List TokenKind}, n.limit = 0 →
    kinds.length < size → followsItem .colon last →
    Reads n (withItem (within hole size)) kinds (last :: rest) Item

namespace IsStatement

variable {Q R : Stmt → Prop}

theorem mono (h : IsStatement hole kinds Q) (weaker : ∀ s, Q s → R s) :
    IsStatement hole kinds R := by
  refine ⟨h.begins, fun free fits deep => (h.reads free fits deep).mono ?_⟩
  rintro _ ⟨s, rfl, holds⟩
  exact ⟨s, rfl, weaker s holds⟩

/-- An operand alone on a line. -/
theorem expr (h : IsOperand hole kinds P) : IsStatement hole (kinds ++ [.newline])
    fun s => ∃ e span, s = .expr e span ∧ P e := by
  constructor
  · obtain ⟨first, ahead, starts⟩ := exists_ahead h.opens [.newline]
    rw [ahead, Option.any_some]
    unfold startsSigned startsOperand at starts
    split at starts
    · rfl
    · split at starts <;> first | rfl | cases starts
  · intro n size count rest free fits deep
    rw [List.length_append, List.length_singleton] at fits deep
    obtain ⟨less, rfl⟩ : ∃ less, count = less + 1 := ⟨count - 1, by omega⟩
    refine (statementWithin_of_expression h.opens (h.expression free fits rfl)).mono ?_
    rintro _ ⟨e, span, rfl, holds⟩
    exact ⟨_, rfl, e, span, rfl, holds⟩

theorem pass : IsStatement hole [.keyword .passKw, .newline] fun s => ∃ span, s = .pass span := by
  refine ⟨rfl, fun {n size count rest} _ _ deep => ?_⟩
  obtain ⟨less, rfl⟩ : ∃ less, count = less + 1 := ⟨count - 1, by simp at deep; omega⟩
  have small : Reads n (smallStatement (within hole size)) [.keyword .passKw] (.newline :: rest)
      fun s => ∃ span, s = .pass span := by
    unfold smallStatement
    exact .bind_here fun start => .bind_look (.keyword .passKw) rfl (.bind_take rfl fun _ _ =>
      .bind_span fun span => .pure ⟨span, rfl⟩)
  exact Reads.bind_look (.keyword .passKw) rfl (simpleStatements_of_small small)

end IsStatement

/-! ### Items -/

namespace IsItem

theorem mono {Item Item' : WithItem → Prop} (h : IsItem hole kinds Item)
    (weaker : ∀ i, Item i → Item' i) : IsItem hole kinds Item' :=
  ⟨fun free fits follows => (h.reads free fits follows).mono weaker⟩

/-- An item whose value is not stored. -/
theorem plain (h : IsOperand hole kinds P) :
    IsItem hole kinds fun i => ∃ e span, i = ⟨e, none, span⟩ ∧ P e := by
  refine ⟨fun {n size last rest} free fits follows => ?_⟩
  have ends : endsOperand last = true := by rcases follows with rfl | rfl <;> rfl
  have value : Reads n (within hole size).expression kinds (last :: rest) P :=
    h.expression free fits ends
  unfold withItem
  refine .bind_here fun start => .bind_all value fun e holds =>
    .bind_nothing (P := (· = none)) ?_ ?_
  · refine .bind_accept_other last rfl ?_ (.pure rfl)
    rcases follows with rfl | rfl <;> nofun
  · rintro _ rfl
    exact .bind_span fun span => .pure ⟨e, span, rfl, holds⟩

/-- The target that an operand is read as. -/
def Stores (T : Expr → Prop) (e : Expr) : Prop :=
  ∃ t, e.toTarget .store = .ok t ∧ T t

/-- An item whose value is stored in a target. -/
theorem stored {target : List TokenKind} {T : Expr → Prop} (h : IsOperand hole kinds P)
    (h' : IsOperand hole target (Stores T)) :
    IsItem hole (kinds ++ .keyword .asKw :: target)
      fun i => ∃ e t span, i = ⟨e, some t, span⟩ ∧ P e ∧ T t := by
  refine ⟨fun {n size last rest} free fits follows => ?_⟩
  rw [List.length_append, List.length_cons] at fits
  have ends : endsOperand last = true := by rcases follows with rfl | rfl <;> rfl
  obtain ⟨first, ahead, starts⟩ := exists_ahead h'.opens (last :: rest)
  have place : Reads n (itemTarget (within hole size)) target (last :: rest) T := by
    have operand : Reads n ((within hole size).operation .bitOr) target (last :: rest) (Stores T) :=
      h'.operation .bitOr free (by omega) ends
    unfold itemTarget starredOperand
    refine .bind_all (P := Stores T) (.bind_here fun start => .bind_accept_other first ahead
      (ofKind?_ne_of_startsSigned starts rfl) operand) ?_
    rintro e ⟨t, known, holds⟩ s here
    exact ⟨t, s, by rw [lift, known]; rfl, here, holds⟩
  unfold withItem
  have value : Reads n (within hole size).expression kinds
      (.keyword .asKw :: target ++ last :: rest) P := h.expression free (by omega) rfl
  refine .bind_here fun start => .bind value fun e holds => ?_
  refine .bind_all (P := fun target? => ∃ t, target? = some t ∧ T t) (.bind_accept rfl
    (place.map fun t known => ⟨t, rfl, known⟩)) ?_
  rintro _ ⟨t, rfl, known⟩
  exact .bind_span fun span => .pure ⟨e, t, span, rfl, holds, known⟩

end IsItem

section

variable {ι κ : Type} {itemKinds : ι → List TokenKind} {Item : ι → WithItem → Prop}
  {kindsOf : κ → List TokenKind} {Q : κ → Stmt → Prop} {n : Nesting} {size count : Nat}
  {rest : List TokenKind} {items : List ι} {body : List κ}

/-- A further item, behind a comma. -/
theorem rounds_of_items (free : n.limit = 0)
    (all : ∀ item ∈ items, IsItem hole (itemKinds item) (Item item))
    (short : ∀ item ∈ items, (itemKinds item).length < size) :
    ∀ item ∈ items, Reads.Rounds n (when? (accept (.op .comma)) (withItem (within hole size)))
      (fun tail => ∃ last rest, tail = last :: rest ∧ followsItem .colon last) (Item item)
      (.op .comma :: itemKinds item) := by
  refine fun item member => ⟨List.cons_ne_nil _ _, fun tail _ => ⟨_, _, rfl, .inl rfl⟩, ?_⟩
  rintro _ ⟨last, rest, rfl, follows⟩
  have one : Reads n (withItem (within hole size)) (itemKinds item) (last :: rest) (Item item) :=
    (all item member).reads free (short item member) follows
  exact .bind_accept rfl (one.map fun i holds => ⟨i, rfl, holds⟩)

/-- Items with commas between them, up to the block. -/
theorem separated_of_items (free : n.limit = 0) (nonempty : items ≠ [])
    (all : ∀ item ∈ items, IsItem hole (itemKinds item) (Item item))
    (fits : ([TokenKind.op .comma].intercalate (items.map itemKinds)).length < size) :
    Reads n (separated (withItem (within hole size)))
      ([TokenKind.op .comma].intercalate (items.map itemKinds)) (.op .colon :: rest)
      (List.Forall₂ Item items) := by
  have short : ∀ item ∈ items, (itemKinds item).length < size := fun item member =>
    Nat.lt_of_le_of_lt (length_le_intercalate (List.mem_map_of_mem member)) fits
  obtain ⟨first, more, rfl⟩ := List.exists_cons_of_ne_nil nonempty
  obtain ⟨here, others⟩ := List.forall_mem_cons.1 all
  obtain ⟨hereFits, othersFit⟩ := List.forall_mem_cons.1 short
  have stop : Reads n (when? (accept (.op .comma)) (withItem (within hole size))) []
      (.op .colon :: rest) (· = none) :=
    .bind_accept_other (.op .colon) rfl nofun (.pure rfl)
  have later := Reads.many (rounds_of_items free others othersFit) stop ⟨_, _, rfl, .inr rfl⟩
  obtain ⟨last, behind, ahead, follows⟩ : ∃ last behind, furtherKinds (more.map itemKinds) ++ [] ++
      .op .colon :: rest = last :: behind ∧ followsItem .colon last :=
    exists_follower (.inl rfl) (more.map itemKinds) rest
  rw [List.append_nil] at ahead later
  have kinds : furtherKinds (more.map itemKinds) =
      more.flatMap fun item => .op .comma :: itemKinds item := List.flatMap_map _ _ _
  have one : Reads n (withItem (within hole size)) (itemKinds first)
      (furtherKinds (more.map itemKinds) ++ .op .colon :: rest) (Item first) := by
    rw [ahead]
    exact here.reads free hereFits follows
  rw [List.map_cons, intercalate_eq_furtherKinds]
  unfold separated
  refine .bind one fun i holds => ?_
  rw [kinds]
  exact .bind_all later fun is all => .pure (.cons holds all)

/-- A statement of a block. -/
theorem rounds_of_statements (free : n.limit = 0)
    (all : ∀ s ∈ body, IsStatement hole (kindsOf s) (Q s))
    (short : ∀ s ∈ body, (kindsOf s).length ≤ size ∧ (kindsOf s).length ≤ count) :
    ∀ s ∈ body, Reads.Rounds n
      (blockLine ⟨statementWithin (within hole size) count, branchWithin (within hole size) count⟩)
      (fun _ => True) (fun body => ∃ t, body = [t] ∧ Q s t) (kindsOf s) := by
  intro s member
  obtain ⟨first, ahead, starts⟩ := (Option.any_eq_true _ _).1 (all s member).begins
  obtain ⟨more, kinds⟩ := List.head?_eq_some_iff.1 ahead
  refine .of_any (by rw [kinds]; exact List.cons_ne_nil _ _) fun tail => ?_
  have one : Reads n (statementWithin (within hole size) count) (kindsOf s) tail
      fun body => ∃ t, body = [t] ∧ Q s t :=
    (all s member).reads free (short s member).1 (short s member).2
  have read := one.map (f := some) (R := fun body? => ∃ body, body? = some body ∧
    ∃ t, body = [t] ∧ Q s t) fun body holds => ⟨body, rfl, holds⟩
  unfold blockLine
  refine .bind_look first (by rw [kinds]; rfl) ?_
  split
  · cases starts
  · cases starts
  · cases starts
  · exact read

/-- The block of a statement, on the lines below it. -/
theorem block_of_statements (free : n.limit = 0)
    (all : ∀ s ∈ body, IsStatement hole (kindsOf s) (Q s))
    (fits : (body.flatMap kindsOf).length ≤ size) (deep : (body.flatMap kindsOf).length ≤ count) :
    Reads n (block ⟨statementWithin (within hole size) count,
        branchWithin (within hole size) count⟩ (within hole size))
      (.op .colon :: .newline :: .indent :: (body.flatMap kindsOf ++ [.dedent])) rest
      (List.Forall₂ Q body) := by
  have short : ∀ s ∈ body, (kindsOf s).length ≤ (body.flatMap kindsOf).length := fun s member =>
    (List.sublist_flatten_of_mem (List.mem_map_of_mem member)).length_le
  have line := rounds_of_statements (n := ⟨n.limit, n.depth + 1⟩) free all fun s member =>
    ⟨Nat.le_trans (short s member) fits, Nat.le_trans (short s member) deep⟩
  have stop : Reads ⟨n.limit, n.depth + 1⟩ (blockLine ⟨statementWithin (within hole size) count,
      branchWithin (within hole size) count⟩) [.dedent] rest (· = none) :=
    .bind_look .dedent rfl (.bind_take rfl fun _ _ => .pure rfl)
  have lines := Reads.many line stop trivial
  unfold block
  refine .bind_one (.expect_taken rfl) fun _ _ => ?_
  refine .nested (by rw [free]; rfl) (.bind_look .newline rfl (.bind_take rfl fun _ _ => ?_))
  unfold indentedBlock
  exact .bind_look .indent rfl (.bind_take rfl fun _ _ =>
    .bind_all lines fun found holds => .pure (flatten_of_forall₂ holds))

/-- A `with` statement with its items and its block. -/
theorem IsStatement.withStmt (nonempty : items ≠ [])
    (isItem : ∀ item ∈ items, IsItem hole (itemKinds item) (Item item))
    (all : ∀ s ∈ body, IsStatement hole (kindsOf s) (Q s)) :
    IsStatement hole
      (.keyword .withKw :: ([TokenKind.op .comma].intercalate (items.map itemKinds) ++
        .op .colon :: .newline :: .indent :: (body.flatMap kindsOf ++ [.dedent])))
      fun s => ∃ is block span, s = .withStmt is block span ∧ List.Forall₂ Item items is ∧
        List.Forall₂ Q body block := by
  refine ⟨rfl, fun {n size count rest} free fits deep => ?_⟩
  simp only [List.length_cons, List.length_append] at fits deep
  obtain ⟨less, rfl⟩ : ∃ less, count = less + 1 := ⟨count - 1, by omega⟩
  have statement : Reads n (withStatement ⟨statementWithin (within hole size) less,
      branchWithin (within hole size) less⟩ (within hole size))
      (.keyword .withKw :: ([TokenKind.op .comma].intercalate (items.map itemKinds) ++
        .op .colon :: .newline :: .indent :: (body.flatMap kindsOf ++ [.dedent]))) rest
      fun s => ∃ is block span, s = .withStmt is block span ∧ List.Forall₂ Item items is ∧
        List.Forall₂ Q body block := by
    unfold withStatement
    refine .bind_here fun start => .bind_one (.expect_taken rfl) fun _ _ =>
      .bind (separated_of_items free nonempty isItem (by omega)) fun is holds => ?_
    refine .bind_all (block_of_statements free all (by omega) (by omega)) fun block inner => ?_
    exact .bind_span fun span => .pure ⟨is, block, span, rfl, holds, inner⟩
  have single := statement.map (f := fun s => [s]) (R := fun stmts => ∃ s, stmts = [s] ∧
    ∃ is block span, s = .withStmt is block span ∧ List.Forall₂ Item items is ∧
      List.Forall₂ Q body block) fun s holds => ⟨s, rfl, holds⟩
  exact Reads.bind_look (.keyword .withKw) rfl single

end

end Grammar

/-- A text whose tokens are statements is read as a script of these statements. -/
theorem Module.ofText_of_statements {ι : Type} {items : List ι} {kindsOf : ι → List TokenKind}
    {Q : ι → Stmt → Prop} {text : String} {tokens : List (Token TokenKind)}
    (lexed : Script.tokens (utf8 text) = .ok tokens)
    (known : tokens.map (·.kind) = items.flatMap kindsOf ++ [.eof])
    (all : ∀ hole, ∀ item ∈ items, Grammar.IsStatement hole (kindsOf item) (Q item)) :
    ∃ m, Module.ofText .unlimited text = .ok m ∧ List.Forall₂ Q items m.body := by
  have size : tokens.length = (items.flatMap kindsOf).length + 1 := by
    rw [← List.length_map, known, List.length_append]
    rfl
  refine Module.ofText_of_reads .unlimited rfl lexed known fun hole => ?_
  refine Grammar.script_of_statements (fun item member => (all hole item member).begins)
    fun item member rest => ?_
  have short : (kindsOf item).length ≤ (items.flatMap kindsOf).length :=
    (List.sublist_flatten_of_mem (List.mem_map_of_mem member)).length_le
  exact (all hole item member).reads rfl (by omega) (by omega)

end ScoreScript.Script
