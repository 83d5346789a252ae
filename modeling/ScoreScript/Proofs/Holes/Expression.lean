import ScoreScript.Proofs.Holes.Part

/-!
The rules for expressions cover the tokens they use. Where a format string is read, each of its
holes is filled by what was read from the hole's source, and the string keeps all its parts.
-/

namespace ScoreScript.Script

/-- The parts of literals that have been put together. Only a format string has any. -/
def Joining.nodes (j : Joining) : List Node :=
  if j.isFormat && j.bytes.isNone then j.parts.map .expr else []

namespace Grammar

open Rule

variable {whole : Option Knot} {k : Knot} {n : Nesting} {s t : Stream} {span : Span}

/-! ### String literals -/

theorem ok_of_nested {α : Type} {rule : Rule α} {a : α} (done : nested rule n s = .ok (a, t)) :
    ∃ m, rule m s = .ok (a, t) := by
  unfold nested at done
  split at done
  · exact ⟨_, done⟩
  · cases done

theorem holeValue_ok {source : String} {value : Expr}
    (done : holeValue k source span n s = .ok (value, t)) :
    t = s ∧ ∃ room, k.hole room source = .ok value := by
  unfold holeValue at done
  dsimp only at done
  split at done
  · rename_i found
    cases done
    exact ⟨rfl, _, found⟩
  · cases done

mutual

/-- A piece is read from no token, and what is read fills its holes. -/
theorem formatPiece_fills : (piece : FormatPiece) → ∀ {n : Nesting} {s t : Stream} {e : Expr},
    formatPiece k span piece n s = .ok (e, t) →
      t = s ∧ ∀ h ∈ piece.holes, (Node.expr e).Fills k.hole h
  | .literal text, n, s, t, e, done => by
    rw [formatPiece] at done
    cases done
    exact ⟨rfl, List.forall_mem_nil _⟩
  | .hole source conversion none, n, s, t, e, done => by
    rw [formatPiece] at done
    obtain ⟨m, done⟩ := ok_of_nested done
    obtain ⟨⟨value, u⟩, first, ⟨⟩⟩ :=
      ok_of_bind (show holeValue k source span m s >>= _ = .ok (e, t) from done)
    obtain ⟨rfl, room, read⟩ := holeValue_ok first
    exact ⟨rfl, List.forall_mem_singleton.2 ⟨room, value, none, span, read, .self _⟩⟩
  | .hole source conversion (some spec), n, s, t, e, done => by
    rw [formatPiece] at done
    obtain ⟨m, done⟩ := ok_of_nested done
    obtain ⟨⟨value, u⟩, first, done⟩ :=
      ok_of_bind (show holeValue k source span m s >>= _ = .ok (e, t) from done)
    obtain ⟨⟨parts, v⟩, second, ⟨⟩⟩ :=
      ok_of_bind (show formatPieces k span spec m u >>= _ = .ok (e, t) from done)
    obtain ⟨rfl, room, read⟩ := holeValue_ok first
    obtain ⟨rfl, inSpec⟩ := formatPieces_fills spec second
    refine ⟨rfl, List.forall_mem_cons.2 ⟨⟨room, value, _, span, read, .self _⟩, fun h inside => ?_⟩⟩
    obtain ⟨part, there, fills⟩ := inSpec h inside
    have spec : (Node.expr (.joined parts span)).Fills k.hole h :=
      .of_part (List.mem_map_of_mem there) fills
    exact .of_part (List.mem_cons_of_mem _ List.mem_cons_self) spec

theorem formatPieces_fills : (pieces : List FormatPiece) →
    ∀ {n : Nesting} {s t : Stream} {parts : List Expr},
      formatPieces k span pieces n s = .ok (parts, t) →
      t = s ∧ ∀ h ∈ pieceHoles pieces, ∃ e ∈ parts, (Node.expr e).Fills k.hole h
  | [], n, s, t, parts, done => by
    rw [formatPieces] at done
    cases done
    exact ⟨rfl, List.forall_mem_nil _⟩
  | piece :: rest, n, s, t, parts, done => by
    rw [formatPieces] at done
    obtain ⟨⟨first, u⟩, one, done⟩ :=
      ok_of_bind (show formatPiece k span piece n s >>= _ = .ok (parts, t) from done)
    obtain ⟨⟨others, v⟩, more, ⟨⟩⟩ :=
      ok_of_bind (show formatPieces k span rest n u >>= _ = .ok (parts, t) from done)
    obtain ⟨rfl, here⟩ := formatPiece_fills piece one
    obtain ⟨rfl, later⟩ := formatPieces_fills rest more
    refine ⟨rfl, List.forall_mem_append.2 ⟨fun h inside => ?_, fun h inside => ?_⟩⟩
    · exact ⟨first, List.mem_cons_self, here h inside⟩
    · obtain ⟨e, there, fills⟩ := later h inside
      exact ⟨e, List.mem_cons_of_mem _ there, fills⟩

end

theorem closeText_cases (j : Joining) (stop : Pos) :
    (j.closeText stop).isFormat = j.isFormat ∧ (j.closeText stop).bytes = j.bytes ∧
      ∀ e ∈ j.parts, e ∈ (j.closeText stop).parts := by
  unfold Joining.closeText
  split
  · exact ⟨rfl, rfl, fun _ => id⟩
  · exact ⟨rfl, rfl, fun _ => List.mem_cons_of_mem _⟩

/-- Pieces join a format string from no token. They fill their holes, and all parts stay. -/
theorem joinPieces_fills {pieces : List FormatPiece} {j j' : Joining}
    (done : joinPieces k span j pieces n s = .ok (j', t)) :
    t = s ∧ j'.isFormat = j.isFormat ∧ j'.bytes = j.bytes ∧ (∀ e ∈ j.parts, e ∈ j'.parts) ∧
      ∀ h ∈ pieceHoles pieces, ∃ e ∈ j'.parts, (Node.expr e).Fills k.hole h := by
  induction pieces generalizing j s with
  | nil =>
    cases done
    exact ⟨rfl, rfl, rfl, fun _ => id, List.forall_mem_nil _⟩
  | cons piece rest ih =>
    cases piece with
    | literal text => exact ih (j := { j with text := j.text ++ text }) done
    | hole source conversion spec =>
      obtain ⟨⟨part, u⟩, one, more⟩ :=
        ok_of_bind (show formatPiece k span _ n s >>= _ = .ok (j', t) from done)
      obtain ⟨rfl, here⟩ := formatPiece_fills _ one
      obtain ⟨format, bytes, stay⟩ := closeText_cases j span.stop
      obtain ⟨rfl, format', bytes', stay', later⟩ := ih (j := { j.closeText span.stop with
        parts := part :: (j.closeText span.stop).parts, start := span.start }) more
      refine ⟨rfl, format'.trans format, bytes'.trans bytes, fun e inside => ?_, ?_⟩
      · exact stay' e (List.mem_cons_of_mem _ (stay e inside))
      · refine List.forall_mem_append.2 ⟨fun h inside => ?_, later⟩
        exact ⟨part, stay' part List.mem_cons_self, here h inside⟩

/-- One more literal is joined from no token besides its own. Its holes are filled, and the parts
of a format string stay. -/
theorem joinLiteral_fills {j j' : Joining} {value : String} {kind : StringKind}
    (done : joinLiteral k j value kind span n s = .ok (j', t)) :
    t = s ∧ (∀ q ∈ j.nodes, q ∈ j'.nodes) ∧
      ∀ h ∈ (TokenKind.string value kind).holes, ∃ q ∈ j'.nodes, q.Fills k.hole h := by
  obtain ⟨parts, text, bytes, isFormat, start⟩ := j
  unfold joinLiteral at done
  cases kind with
  | text =>
    cases bytes with
    | some bytes => cases done
    | none =>
      cases done
      exact ⟨rfl, fun _ => id, List.forall_mem_nil _⟩
  | bytes =>
    change (if _ then _ else _ : Rule Joining) n s = _ at done
    split at done
    · cases done
    · rename_i plain
      cases done
      simp only [Bool.or_eq_true, not_or, Bool.not_eq_true] at plain
      rw [Joining.nodes, plain.2]
      exact ⟨rfl, List.forall_mem_nil _, List.forall_mem_nil _⟩
  | format =>
    cases bytes with
    | some bytes => cases done
    | none =>
      rw [TokenKind.holes]
      cases pieces : FormatPiece.ofText? value with
      | none =>
        simp only [pieces] at done
        cases done
      | some pieces' =>
        simp only [pieces] at done
        obtain ⟨rfl, format, bytes, stay, filled⟩ := joinPieces_fills done
        have nodes : j'.nodes = j'.parts.map .expr := by
          rw [Joining.nodes, format, bytes]
          rfl
        rw [nodes, Option.getD_some]
        refine ⟨rfl, fun q inside => ?_, fun h inside => ?_⟩
        · unfold Joining.nodes at inside
          split at inside
          · obtain ⟨e, there, rfl⟩ := List.mem_map.1 inside
            exact List.mem_map_of_mem (stay e there)
          · cases inside
        · obtain ⟨e, there, fills⟩ := filled h inside
          exact ⟨.expr e, List.mem_map_of_mem there, fills⟩

/-- What has been put together holds the parts of a format string. -/
theorem mem_parts_toExpr {j : Joining} {q : Node} (inside : q ∈ j.nodes) :
    q ∈ (j.toExpr span).parts := by
  unfold Joining.nodes at inside
  split at inside
  · rename_i format
    obtain ⟨format, text⟩ := Bool.and_eq_true_iff.1 format
    obtain ⟨e, there, rfl⟩ := List.mem_map.1 inside
    rw [Joining.toExpr, Option.isNone_iff_eq_none.1 text]
    simp only [format, if_true]
    obtain ⟨-, -, stay⟩ := closeText_cases j span.stop
    exact List.mem_map_of_mem (List.mem_reverse.2 (stay e there))
  · cases inside

theorem strings_covers : Covers k.hole whole [] (strings k) fun e => [.expr e] := by
  unfold strings
  refine .skip .here fun start => .seq (.loopFrom rfl fun j => .look fun s => ?_) fun j =>
    .skip .spanFrom fun span => .node fun q inside => mem_parts_toExpr inside
  split
  · rename_i value kind found
    intro n j? t done
    obtain ⟨⟨j', u⟩, joined, ⟨⟩⟩ := ok_of_bind
      (show joinLiteral k j value kind s.current.span n s.advance >>= _ = .ok (j?, t) from done)
    obtain ⟨rfl, stay, filled⟩ := joinLiteral_fills joined
    refine ⟨[s.current], s.rest_eq_cons (by rw [found]; rfl), ?_, ?_⟩
    · exact List.forall_mem_singleton.2 (by rw [found]; exact ⟨rfl, fun _ => rfl⟩)
    · rintro x (here | ⟨q, inside, fills⟩)
      · rw [holesIn_cons, found, holesIn_nil, List.append_nil] at here
        exact .inl (filled x here)
      · exact .inl ⟨q, stay q inside, fills⟩
  · refine Covers.pure (fun q inside => ?_) s
    exact inside

/-! ### Operands -/

theorem constantOf?_plain {kind : TokenKind} {value : Constant}
    (found : constantOf? kind = some value) : kind.holes = [] ∧ kind.isLayout = false := by
  cases kind <;> first | exact ⟨rfl, rfl⟩ | cases found

section

variable (h : KnotCovers whole k)
include h

theorem atom_covers : Covers k.hole whole [] (atom k) fun e => [.expr e] := by
  unfold atom
  refine .skip .here fun start => .look fun s => ?_
  split
  · rename_i found
    exact .taken (by rw [found]; rfl) (fun _ => by rw [found]; rfl) fun token => .leaf
  · exact strings_covers s
  · rename_i found
    exact .taken (by rw [found]; rfl) (fun _ => by rw [found]; rfl) fun _ =>
      .nested (parenthesized_covers h)
  · rename_i found
    exact .taken (by rw [found]; rfl) (fun _ => by rw [found]; rfl) fun _ =>
      .nested (listDisplay_covers h)
  · rename_i found
    exact .taken (by rw [found]; rfl) (fun _ => by rw [found]; rfl) fun _ =>
      .nested (braceDisplay_covers h)
  · split
    · rename_i found
      obtain ⟨plain, inLine⟩ := constantOf?_plain found
      exact .taken plain (fun _ => inLine) fun token => .leaf
    · exact Covers.unexpected s

/-- A call, an index or a member holds what it is of. -/
theorem postfixed_covers {start : Pos} {owner : Expr} :
    Covers k.hole whole [.expr owner] (postfixed k start owner) fun e? =>
      [.expr (e?.getD owner)] := by
  unfold postfixed
  refine .skip .accept fun call => .ite ?_ (.skip .accept fun index => .ite ?_
    (.skip .accept fun member => .ite ?_ (.pure fun _ => id)))
  · exact (arguments_covers h).bind fun args => .skip .spanFrom fun span =>
      .node (by simp [Node.parts, Expr.parts])
  · exact (slices_covers h).bind fun index => .skip .expect fun _ => .skip .spanFrom fun span =>
      .node (by simp [Node.parts, Expr.parts])
  · exact .skip .name fun field => .skip .spanFrom fun span =>
      .node (by simp [Node.parts, Expr.parts])

theorem primary_covers : Covers k.hole whole [] (primary k) fun e => [.expr e] := by
  unfold primary
  exact .skip .here fun start => (atom_covers h).seq fun e =>
    .loop (fun e => [.expr e]) fun owner => postfixed_covers h

theorem power_covers : Covers k.hole whole [] (power k) fun e => [.expr e] := by
  unfold power
  refine .skip .here fun start => .skip .accept fun awaits => .ite
    ((primary_covers h).bind fun value => .skip .spanFrom fun span =>
      .seq (.node (f := .expr) ?_) ?rest) (.seq (primary_covers h) ?rest)
  · simp [Node.parts, Expr.parts]
  refine fun base => .skip .accept fun raised => .ite ?_ (.pure fun _ => id)
  exact (Covers.nested h.factor).bind fun exponent => .skip .spanFrom fun span =>
    .node (by simp [Node.parts, Expr.parts])

theorem factor_covers : Covers k.hole whole [] (factor k) fun e => [.expr e] := by
  unfold factor
  refine .skip .here fun start => .look fun s => ?_
  split
  · rename_i op found
    obtain ⟨plain, inLine⟩ : s.current.kind.holes = [] ∧ s.current.kind.isLayout = false := by
      cases kind : s.current.kind <;> rw [kind] at found <;>
        first | exact ⟨rfl, rfl⟩ | cases found
    exact .taken plain (fun _ => inLine) fun _ => (Covers.nested h.factor).bind fun operand =>
      .skip .spanFrom fun span => .node (by simp [Node.parts, Expr.parts])
  · exact power_covers h s

theorem firstOperand_covers {min : Level} :
    Covers k.hole whole [] (firstOperand k min) fun e => [.expr e] := by
  unfold firstOperand
  refine .skip .here fun start => .ite (.skip .accept ?rest) (.skip .leaf ?rest)
  refine fun negated => .ite ?_ (factor_covers h)
  exact (Covers.nested (h.operation _)).bind fun operand => .skip .spanFrom fun span =>
    .node (by simp [Node.parts, Expr.parts])

/-! ### Operators -/

omit h in
theorem ofKinds?_plain {first second : TokenKind} {op : CompareOperator} {isLong : Bool}
    (found : CompareOperator.ofKinds? first second = some (op, isLong)) :
    (first.holes = [] ∧ first.isLayout = false ∧ first.isEof = false) ∧
      (isLong = true → second.holes = [] ∧ second.isLayout = false) := by
  unfold CompareOperator.ofKinds? at found
  split at found <;> cases found <;> refine ⟨⟨rfl, rfl, rfl⟩, fun long => ?_⟩ <;>
    first | exact ⟨rfl, rfl⟩ | cases long

theorem comparison_covers : Covers k.hole whole [] (comparison k) fun c? =>
    c?.toList.flatMap fun c => [.expr c.operand] := by
  unfold comparison
  refine .look fun s => .ahead ?_
  have operand {op : CompareOperator} : Covers k.hole whole [] (do
      return some (Comparison.mk op (← k.operation Level.compare.next))) fun c? =>
        c?.toList.flatMap fun c => [.expr c.operand] :=
    (h.operation _).bind fun e => .pure (by simp [Comparison.operand])
  split
  · exact Covers.leaf s
  · rename_i op isLong found
    obtain ⟨⟨plain, inLine, more⟩, next⟩ := ofKinds?_plain found
    refine .passed plain (fun _ => inLine) (fun _ => rfl) ?_
    cases isLong with
    | true =>
      obtain ⟨plain', inLine'⟩ := next rfl
      rw [← s.current_advance more] at plain' inLine'
      exact .taken plain' (fun _ => inLine') fun _ => operand
    | false => exact operand _

/-- A joint holds what is to the left of it. -/
theorem extend_covers {min : Level} {start : Pos} {left : Expr} :
    Covers k.hole whole [.expr left] (extend k min start left) fun e? =>
      [.expr (e?.getD left)] := by
  unfold extend
  refine .look fun s => .ahead ?_
  split
  · refine Covers.pure (fun q inside => ?_) s
    exact inside
  · rename_i level joint found
    split
    · refine Covers.pure (fun q inside => ?_) s
      exact inside
    · split
      · refine (Covers.many (.when? .accept (h.operation _))).bind (fun rest => ?_) s
        exact .skip .spanFrom fun span =>
          .node (by simp [Node.parts, Expr.parts, ← List.map_eq_flatMap])
      · refine (Covers.many (comparison_covers h)).bind (fun rest => ?_) s
        exact .skip .spanFrom fun span =>
          .node (by simp [Node.parts, Expr.parts, ← List.map_eq_flatMap])
      · obtain ⟨plain, inLine⟩ : s.current.kind.holes = [] ∧ s.current.kind.isLayout = false := by
          cases kind : s.current.kind <;> rw [kind] at found <;>
            first | exact ⟨rfl, rfl⟩ | cases found
        exact .taken plain (fun _ => inLine) fun _ => (h.operation _).bind fun right =>
          .skip .spanFrom fun span => .node (by simp [Node.parts, Expr.parts])

theorem operation_covers {min : Level} :
    Covers k.hole whole [] (operation k min) fun e => [.expr e] := by
  unfold operation
  exact .skip .here fun start => (firstOperand_covers h).seq fun e =>
    .loop (fun e => [.expr e]) fun left => extend_covers h

/-! ### Whole expressions -/

theorem lambda_covers : Covers k.hole whole [] (lambda k) fun e => [.expr e] := by
  unfold lambda
  refine .skip .here fun start => .skip .expect fun _ => ?_
  refine (parameters_covers h).bind fun params => .skip .expect fun _ => ?_
  exact h.expression.bind fun body => .skip .spanFrom fun span =>
    .node (by simp [Node.parts, Expr.parts])

theorem expression_covers : Covers k.hole whole [] (expression k) fun e => [.expr e] := by
  unfold expression
  refine .nested (.skip .isNext fun isLambda => .ite (lambda_covers h) (.skip .here fun start => ?_))
  refine (operation_covers h).bind fun body => .skip .accept fun isConditional => .ite ?_ ?_
  · refine (operation_covers h).bind fun test => .skip .expect fun _ => ?_
    exact h.expression.bind fun other => .skip .spanFrom fun span =>
      .node (by simp [Node.parts, Expr.parts])
  · exact .pure fun _ => id

end

/-- Each round of the circle of rules covers its tokens. -/
theorem within_covers {hole : Nat → String → Except Error Expr} (size : Nat) : KnotCovers whole
    ⟨expressionWithin hole size, operationWithin hole size, factorWithin hole size, hole⟩ := by
  induction size with
  | zero =>
    refine ⟨?_, fun min s n e t done => ?_, ?_⟩
    · simp only [expressionWithin]
      exact .unexpected
    · simp only [operationWithin] at done
      cases done
    · simp only [factorWithin]
      exact .unexpected
  | succ size ih =>
    refine ⟨?_, fun min s n e t done => ?_, ?_⟩
    · simp only [expressionWithin]
      exact expression_covers ih
    · simp only [operationWithin] at done
      exact operation_covers ih s n e t done
    · simp only [factorWithin]
      exact factor_covers ih

theorem knot_covers (whole : Option Knot) (hole : Nat → String → Except Error Expr) (size : Nat) :
    KnotCovers whole (knot hole size) :=
  within_covers (size + 1)

end Grammar

end ScoreScript.Script
