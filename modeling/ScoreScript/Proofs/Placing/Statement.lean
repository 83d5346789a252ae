import ScoreScript.Proofs.Placing.Expression
import ScoreScript.Proofs.Sandbox.Exactness
import ScoreScript.Proofs.Script.Ending
import ScoreScript.Script.Grammar.Statement

/-!
The rules for statements put nodes where they stand. A statement with a block ends where its block
does, and that is where the indentation shrinks: at the text of a later line, but before the
statement that begins there.

So a text is read to a series of statements, if all that is read has a form that declarative scripts
consist of, as what the sandbox accepts has. Main statement: `Module.located_of_accepted`.
-/

namespace ScoreScript.Script

variable {text : List UInt8}

/-! ### Targets -/

mutual

/-- What an expression is put to another use for stands where the expression did. -/
theorem Expr.toTarget_keeps {use : Use} : (e : Expr) → ∀ {target : Expr},
    e.toTarget use = .ok target → (Node.expr target).Simple →
    (Node.expr e).Simple ∧ target.span = e.span ∧
      ((Node.expr e).Located text → (Node.expr target).Located text)
  | .name id _ span, target, found, simple => by
    cases found
    refine ⟨Node.simple_iff.2 ⟨rfl, List.forall_mem_nil _⟩, rfl, fun located => ?_⟩
    have own := (Node.located_iff.1 located).1
    exact Node.located_iff.2 ⟨own.congr rfl rfl, List.forall_mem_nil _⟩
  | .tuple items _ span, target, found, simple => by
    rw [toTarget] at found
    obtain ⟨targets, found', ⟨⟩⟩ := ok_of_bind found
    have parts := List.forall_mem_map.1 (Node.simple_iff.1 simple).2
    obtain ⟨simple', spans, located'⟩ := toTargets_keep items found' parts
    refine ⟨Node.simple_iff.2 ⟨rfl, List.forall_mem_map.2 simple'⟩, rfl, fun located => ?_⟩
    obtain ⟨own, inner⟩ := Node.located_iff.1 located
    refine Node.located_iff.2 ⟨own.congr rfl ?_, List.forall_mem_map.2 ?_⟩
    · simpa [Node.parts, Expr.parts, Function.comp_def, Node.span] using spans
    · exact located' (List.forall_mem_map.1 inner)
  | .member .., target, found, simple => by
    cases found
    exact absurd simple (Node.not_simple rfl)
  | .subscript .., target, found, simple => by
    cases found
    exact absurd simple (Node.not_simple rfl)
  | .starred value _ span, target, found, simple => by
    rw [toTarget] at found
    obtain ⟨inner, -, ⟨⟩⟩ := ok_of_bind found
    exact absurd simple (Node.not_simple rfl)
  | .list items _ span, target, found, simple => by
    rw [toTarget] at found
    obtain ⟨inner, -, ⟨⟩⟩ := ok_of_bind found
    exact absurd simple (Node.not_simple rfl)
  | .constant .., _, found, _ | .set .., _, found, _ | .dict .., _, found, _
  | .call .., _, found, _ | .slice .., _, found, _ | .unary .., _, found, _
  | .binary .., _, found, _ | .boolean .., _, found, _ | .compare .., _, found, _
  | .lambda .., _, found, _ | .conditional .., _, found, _ | .named .., _, found, _
  | .listComp .., _, found, _ | .setComp .., _, found, _ | .dictComp .., _, found, _
  | .generator .., _, found, _ | .joined .., _, found, _ | .formatted .., _, found, _
  | .await .., _, found, _ | .yield .., _, found, _ | .yieldFrom .., _, found, _ => by
    cases found

theorem Expr.toTargets_keep {use : Use} : (items : List Expr) → ∀ {targets : List Expr},
    toTargets use items = .ok targets → (∀ e ∈ targets, (Node.expr e).Simple) →
    (∀ e ∈ items, (Node.expr e).Simple) ∧ targets.map (·.span) = items.map (·.span) ∧
      ((∀ e ∈ items, (Node.expr e).Located text) → ∀ e ∈ targets, (Node.expr e).Located text)
  | [], targets, found, _ => by
    cases found
    exact ⟨List.forall_mem_nil _, rfl, fun _ => List.forall_mem_nil _⟩
  | first :: rest, targets, found, simple => by
    rw [toTargets] at found
    obtain ⟨target, first', found⟩ := ok_of_bind found
    obtain ⟨others, rest', ⟨⟩⟩ := ok_of_bind found
    obtain ⟨simpleHere, simpleLater⟩ := List.forall_mem_cons.1 simple
    obtain ⟨here, span, locate⟩ := toTarget_keeps first first' simpleHere
    obtain ⟨later, spans, locateLater⟩ := toTargets_keep rest rest' simpleLater
    refine ⟨List.forall_mem_cons.2 ⟨here, later⟩, congrArg₂ List.cons span spans, fun located => ?_⟩
    obtain ⟨locatedHere, locatedLater⟩ := List.forall_mem_cons.1 located
    exact List.forall_mem_cons.2 ⟨locate locatedHere, locateLater locatedLater⟩

end

namespace Grammar

open Rule

variable {k : Knot} {b : Blocks} {p : Nat} {f : Pos} {s : Stream} {start : Pos}

theorem toTarget_places {use : Use} {e : Expr} :
    Appends text [] p f [.expr e] (lift (e.toTarget use)) fun target => [.expr target] := by
  intro s n target t done simple
  obtain ⟨target, found, ⟨⟩⟩ := ok_of_map done
  obtain ⟨simple', span, locate⟩ := e.toTarget_keeps found (List.forall_mem_singleton.1 simple)
  refine ⟨_, rfl, List.forall_mem_singleton.2 simple', fun start => { start with series := ?_ }⟩
  have located := List.forall_mem_singleton.1 start.series.located
  have between := List.forall_mem_singleton.1 start.series.between
  rw [Node.span, ← span] at between
  exact ⟨List.forall_mem_singleton.2 (locate located), List.forall_mem_singleton.2 between,
    List.pairwise_singleton _ _⟩

/-! ### Statements that fit on a line -/

theorem lineEnd_places : Places text lineEnd fun _ => [] := by
  unfold lineEnd
  refine fun p f => .look fun s => ?_
  split
  · exact AppendsAt.seq (Places.take _ _ s) fun _ => .pure rfl
  · exact .pure rfl
  · exact Appends.unexpected s

section

variable (h : KnotPlaces text k) (begins : KnotBegins k)
include h begins

/-- Of assignments nothing is simple. -/
theorem expressionStatement_places :
    Appends text [] p start [] (expressionStatement k start) fun s => [.stmt s] := by
  have alone {first : Expr} : Appends text [] p start [.expr first]
      (do return Stmt.expr first (← spanFrom start)) fun s => [.stmt s] :=
    .started (List.cons_ne_nil _ _) fun _ less =>
      .spanned less (fun _ => rfl) (fun _ => rfl) fun _ => rfl
  refine (expressions_places h begins _ _).seq fun first => .look fun s => ?_
  split
  · exact Foreign.adds (.bind fun read => .bind fun _ => .stmt rfl) s
  · exact Foreign.adds (.bind fun _ => .bind fun _ => .bind fun _ => .bind fun _ =>
      .bind fun _ => .stmt rfl) s
  · split
    · exact Foreign.adds (.bind fun _ => .bind fun _ => .bind fun _ => .bind fun _ => .stmt rfl) s
    · exact alone s
  · exact alone s

omit h in
/-- A statement on a line begins with a keyword, or else with an expression. -/
theorem smallStatement_opens : OpensAt s (smallStatement k) := by
  refine .here (.look ?_)
  split <;> rename_i found
  iterate 11 exact .of_kind found rfl
  have opens : Begins (expressions k) := .here fun _ => (starredExpression_begins begins).first
  exact .of_begins opens.first

theorem smallStatement_places : Places text (smallStatement k) fun s => [.stmt s] := by
  refine fun p f => .opening (fun _ => smallStatement_opens begins) fun s p solid => .look ?_
  split
  · exact .taken solid fun p less => .spanned less (fun _ => rfl) (fun _ => rfl) fun _ => rfl
  iterate 2 exact Foreign.adds (.bind fun _ => .bind fun _ => .stmt rfl) s
  · exact Foreign.adds (.bind fun _ => .bind fun _ => .bind fun _ => .stmt rfl) s
  · exact Foreign.adds (.bind fun _ => .bind fun _ => .bind fun _ => .bind fun _ => .stmt rfl) s
  iterate 2 exact Foreign.adds (.bind fun _ => .bind fun _ => .bind fun _ => .stmt rfl) s
  · exact Foreign.adds (.bind fun _ => .bind fun _ => .bind fun _ => .bind fun _ => .stmt rfl) s
  · exact Foreign.adds (.bind fun _ => .bind fun _ => .bind fun _ => .stmt rfl) s
  · exact Foreign.adds (.bind fun _ => .bind fun _ => .bind fun _ => .stmt rfl) s
  · exact Foreign.adds (.bind fun _ => .bind fun _ => .bind fun _ => .bind fun _ => .bind fun _ =>
      .bind fun _ => .stmt rfl) s
  · exact expressionStatement_places h begins s

theorem furtherStatement_places : Places text (furtherStatement k) fun s? =>
    s?.toList.flatMap fun s => [.stmt s] := by
  refine fun p f => .skip .accept fun more => .ite (.look fun s => ?_) (.pure rfl)
  split
  · exact .pure rfl
  · exact .pure rfl
  · exact Appends.map (by simpa using smallStatement_places h begins p f) s

theorem simpleStatements_places : Places text (simpleStatements k) fun body => body.map .stmt :=
  fun _ _ => (smallStatement_places h begins _ _).seq fun first =>
    .bind (.many (furtherStatement_places h begins)) fun rest => .skip lineEnd_places fun _ =>
      .pure (by simp [← List.map_eq_flatMap])

/-! ### Statements with blocks -/

end

section

variable (blocks : Places text b.statement fun body => body.map .stmt)
include blocks

theorem blockLine_places : Places text (blockLine b) fun body? =>
    body?.toList.flatMap fun body => body.map .stmt := by
  unfold blockLine
  refine fun p f => .look fun s => ?_
  split
  · exact AppendsAt.seq (Places.take _ _ s) fun _ => .pure rfl
  · exact .pure rfl
  · exact AppendsAt.seq (Places.take _ _ s) fun _ => .pure rfl
  · exact Appends.map (by simpa using blocks p f) s

theorem indentedBlock_places : Places text (indentedBlock b) fun body => body.map .stmt := by
  unfold indentedBlock
  refine fun p f => .look fun s => ?_
  split
  · refine AppendsAt.seq (Places.take _ _ s) fun _ => ?_
    exact .seq (Places.many (blockLine_places blocks) _ _) fun lines =>
      .pure (by simp [List.map_flatten, List.flatMap])
  · exact Appends.unexpected s

variable (h : KnotPlaces text k) (begins : KnotBegins k)
include h begins

theorem block_places : Places text (block b k) fun body => body.map .stmt := by
  refine fun p f => .skip .expect fun _ => .nested (.look fun s => ?_)
  split
  · exact AppendsAt.seq (Places.take _ _ s) fun _ => indentedBlock_places blocks _ _
  · exact simpleStatements_places h begins _ _ s

omit blocks in
/-- An item stands from its expression to what its value is stored in. -/
theorem withItem_places : Places text (withItem k) fun i => [.item i] := by
  have target : Places text (itemTarget k) fun e => [.expr e] :=
    fun _ _ => (starredOperand_places h _ _).seq fun _ => toTarget_places
  refine .begin (.here fun _ => begins.expression.first) fun s p => ?_
  refine AppendsAt.seq (h.expression _ _ s) fun context => ?_
  refine .started (List.cons_ne_nil _ _) fun p less => ?_
  exact .bind (.when? .accept target) fun target? => .spanned less (fun _ => rfl)
    (fun _ => by simp [Node.parts, ← List.map_eq_flatMap]) fun _ => rfl

theorem withStatement_places (solid : s.current.kind.isSolid = true) :
    AppendsAt text [] p f [] (withStatement b k) s fun s => [.stmt s] := by
  refine .start solid fun p => .expected fun p less => ?_
  refine (Places.separated (withItem_places h begins) _ _).seq fun items => ?_
  exact .bind (block_places blocks h begins) fun body => .spanned less (fun _ => rfl)
    (fun _ => by simp [Node.parts, Stmt.parts, ← List.map_eq_flatMap]) fun _ => rfl

omit blocks h begins in
theorem functionDef_foreign {decorators : List Expr} :
    Foreign (functionDef b k decorators) fun s => [.stmt s] := by
  repeat refine .bind fun _ => ?_
  exact .stmt rfl

omit blocks h begins in
theorem classDef_foreign {decorators : List Expr} :
    Foreign (classDef b k decorators) fun s => [.stmt s] := by
  iterate 4 refine .bind fun _ => ?_
  split
  all_goals
    repeat refine .bind fun _ => ?_
    exact .stmt rfl

/-- Of the statements with blocks only `with` is simple. -/
theorem statement_places : Places text (statement b k) fun body => body.map .stmt := by
  have other {rule : Rule Stmt} {p : Nat} {f : Pos} {s : Stream}
      (foreign : Foreign rule fun s => [.stmt s]) :
      AppendsAt text [] p f [] (do return [← rule]) s fun body => body.map .stmt :=
    .seq (foreign.adds s) fun _ => .pure rfl
  refine fun p f => .look fun s => ?_
  split
  · refine other (Foreign.bind fun _ => ?_)
    repeat refine .bind fun _ => ?_
    exact .stmt rfl
  · refine other (Foreign.bind fun _ => ?_)
    repeat refine .bind fun _ => ?_
    exact .stmt rfl
  · refine other (Foreign.bind fun _ => ?_)
    repeat refine .bind fun _ => ?_
    exact .stmt rfl
  · rename_i found
    exact AppendsAt.seq (withStatement_places blocks h begins (by rw [found]; rfl)) fun _ =>
      .pure rfl
  · exact other functionDef_foreign
  · exact other classDef_foreign
  · refine other (Foreign.bind fun _ => ?_)
    repeat refine .bind fun _ => ?_
    exact .ite .unexpected (.bind fun _ => .stmt rfl)
  · refine other (.bind fun _ => .bind fun _ => ?_)
    split
    · exact functionDef_foreign
    · exact classDef_foreign
    · exact .unexpected
  · exact simpleStatements_places h begins p f s

end

/-- Each round of the circle puts nodes where they stand. -/
theorem statementWithin_places (h : KnotPlaces text k) (begins : KnotBegins k) (size : Nat) :
    Places text (statementWithin k size) fun body => body.map .stmt := by
  induction size with
  | zero =>
    intro p f
    simp only [statementWithin]
    exact .unexpected
  | succ size ih =>
    simp only [statementWithin]
    exact statement_places ih h begins

theorem script_places (h : KnotPlaces text k) (begins : KnotBegins k) (size : Nat) :
    Places text (script k size) fun m => m.body.map .stmt := by
  have line : Places text (scriptLine k size) fun body? =>
      body?.toList.flatMap fun body => body.map .stmt := by
    refine fun p f => .look fun s => ?_
    split
    · exact .pure rfl
    · exact AppendsAt.seq (Places.take _ _ s) fun _ => .pure rfl
    · exact Appends.map (by simpa using statementWithin_places h begins (size + 1) p f) s
  exact fun p f => (Places.many line p f).seq fun lines =>
    .pure (by simp [List.map_flatten, List.flatMap])

end Grammar

/-! ### Whole scripts -/

/-- Layout at the end of a text that is in order can be read again. -/
theorem InOrder.again {before : List (Token TokenKind)} {last : Token TokenKind}
    (h : InOrder text (before ++ [last])) (blank : last.kind.isSolid = false) :
    InOrder text (before ++ [last] ++ [last]) := by
  have placed := h.placed last (List.mem_append_right _ (List.mem_singleton_self last))
  obtain ⟨-, -, after⟩ := List.pairwise_append.1 h.pairwise
  refine ⟨List.forall_mem_append.2 ⟨h.placed, List.forall_mem_singleton.2 placed⟩, ?_⟩
  refine List.pairwise_append.2 ⟨h.pairwise, List.pairwise_singleton _ _, ?_⟩
  rintro t inside _ (_ | ⟨_, ⟨⟩⟩)
  rcases List.mem_append.1 inside with earlier | same
  · exact after t earlier last (List.mem_singleton_self last)
  · cases List.mem_singleton.1 same
    exact ⟨Nat.le_refl _, fun solid => absurd solid (ne_true_of_eq_false blank)⟩

/-- A text can be read from its start. -/
theorem Stream.sound_ofTokens {tokens : List (Token TokenKind)}
    (done : Script.tokens text = .ok tokens) : (Stream.ofTokens tokens).Sound text := by
  have order := tokens_inOrder done
  obtain ⟨before, last, rfl, eof, -⟩ := tokens_endsOnce done
  have final : (Stream.ofTokens (before ++ [last])).finalToken = last := by
    rw [Stream.finalToken, Stream.ofTokens, List.getLast?_concat, ← eof]
    rfl
  have left : (Stream.ofTokens (before ++ [last])).left = before ++ [last] ++ [last] := by
    rw [Stream.left, final]
    rfl
  refine ⟨left ▸ order.again (by rw [eof]; rfl), fun t _ => ?_, fun used => ?_⟩
  · exact ⟨Nat.zero_le _, fun _ => Nat.zero_le _⟩
  · exact absurd used (Nat.lt_irrefl 0)

/-- The statements of a text are a series in it, if all of their nodes are simple. -/
theorem Module.series_of_ofText {limits : Limits} {text : String} {m : Module}
    (read : Module.ofText limits text = .ok m) (simple : ∀ s ∈ m.body, (Node.stmt s).Simple) :
    ∃ lo hi, Series (utf8 text) lo hi (m.body.map .stmt) := by
  obtain ⟨_, -, read⟩ := ok_of_bind read
  obtain ⟨tokens, lexed, read⟩ := ok_of_bind read
  obtain ⟨⟨m', s⟩, parsed, ⟨⟩⟩ := ok_of_bind read
  have start : Rule.Stands (utf8 text) _ _ (.ofTokens tokens) [] :=
    .here (Stream.sound_ofTokens lexed)
  have places : Rule.Places (utf8 text)
      (Grammar.script (Grammar.knot (Grammar.readHole (utf8 text).length) tokens.length)
        tokens.length) fun m => m.body.map .stmt :=
    Grammar.script_places (Grammar.within_places _) (Grammar.within_begins _) _
  obtain ⟨added, rfl, -, stands⟩ := places _ _ _ _ _ _ parsed (List.forall_mem_map.2 simple)
  exact ⟨_, _, (stands start).series⟩

/-- What the sandbox accepts is simple. -/
theorem Module.simple_of_accepted {m : Module} (accepted : m.verdict.isAccepted = true) :
    ∀ s ∈ m.body, (Node.stmt s).Simple := by
  have inside := (m.isAccepted_iff_isDeclarative.1 accepted).1
  intro s member
  exact Node.InFragment.simple ((bodyInFragment_iff m.body).1 inside s member)

/-- Everything in an accepted script stands where it was read, and its statements stand one after
another. -/
theorem Module.located_of_accepted {limits : Limits} {text : String} {m : Module}
    (read : Module.ofText limits text = .ok m) (accepted : m.verdict.isAccepted = true) :
    (∀ s ∈ m.body, (Node.stmt s).Located (utf8 text)) ∧
      m.body.Pairwise fun s t => s.span.Before t.span := by
  obtain ⟨lo, hi, series⟩ := series_of_ofText read (simple_of_accepted accepted)
  have ordered := List.pairwise_map.1 series.ordered
  exact ⟨List.forall_mem_map.1 series.located, ordered⟩

end ScoreScript.Script
