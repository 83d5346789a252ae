import ScoreScript.Proofs.Script.Ending
import ScoreScript.Proofs.Source.Cursor

/-!
Where the tokens of a script stand. All readers move a cursor through the text, so that tokens
begin and end at places of it. A token that is written somewhere takes a byte at least and begins
where all tokens before it have ended. Layout need not: the steps by which indentation shrinks at
the start of a line all stand where its blanks are. But no token ends before an earlier one does
(`tokens_inOrder`).
-/

namespace ScoreScript.Script

/-! ### Readers move through the text -/

namespace Literal

variable {start c after stop : Cursor} {kind : TokenKind}

theorem fraction_moves (read : fraction c = some after) : c.MovesTo after := by
  obtain ⟨point, passed, rfl⟩ := Option.map_eq_some_iff.1 read
  exact (Cursor.MovesTo.consume? passed).trans .skipWhile

theorem exponent_moves (read : exponent start c = .ok (some after)) : c.MovesTo after := by
  unfold exponent at read
  split at read
  · dsimp only at read
    split at read <;> split at read <;> cases read
    · exact (Cursor.MovesTo.advance.trans .advance).trans .skipWhile
    · exact Cursor.MovesTo.advance.trans .skipWhile
  · cases read

theorem decimalEnd_moves {isFloat : Bool} (read : decimalEnd c = .ok (stop, isFloat)) :
    c.MovesTo stop := by
  obtain ⟨raised, exponent, ⟨⟩⟩ := ok_of_bind read
  have pointed :
      c.MovesTo ((fraction (c.skipWhile isDigitByte)).getD (c.skipWhile isDigitByte)) := by
    cases point : fraction (c.skipWhile isDigitByte) with
    | none => exact .skipWhile
    | some after => exact Cursor.MovesTo.skipWhile.trans (fraction_moves point)
  cases raised with
  | none => exact pointed
  | some after => exact pointed.trans (exponent_moves exponent)

theorem readNumber_moves (read : readNumber c = .ok (kind, after)) : c.MovesTo after := by
  obtain ⟨⟨stop, isFloat⟩, ended, read⟩ := ok_of_bind read
  have moved : c.MovesTo stop := by
    unfold numberEnd at ended
    split at ended
    · exact decimalEnd_moves ended
    · cases ended
      exact Cursor.MovesTo.advanceBy.trans .skipWhile
  dsimp only at read
  split at read
  · split at read <;> cases read
    exact moved
  · cases read

theorem closeString_moves {form : StringForm} {place : Pos} {bytes : List UInt8}
    (read : closeString form place bytes c = .ok (kind, after)) : c.MovesTo after := by
  unfold closeString at read
  split at read <;> cases read
  exact .refl

theorem stringRest_moves {quotes : Quotes} {form : StringForm} {place : Pos} {bytes : List UInt8}
    (read : stringRest quotes form place c bytes = .ok (kind, after)) : c.MovesTo after := by
  fun_induction stringRest quotes form place c bytes with
  | case3 => exact Cursor.MovesTo.advanceBy.trans (closeString_moves read)
  | case4 c bytes b rest here more extra part less ih =>
    exact Cursor.MovesTo.advanceBy.trans (ih read)
  | _ => cases read

theorem readString_moves {form : StringForm} (read : readString form c = .ok (kind, after)) :
    c.MovesTo after := by
  unfold readString at read
  split at read
  · cases read
  · exact Cursor.MovesTo.advanceBy.trans (stringRest_moves read)

end Literal

namespace Layout

variable {c after : Cursor} {kind : TokenKind}

theorem passBreak_moves : c.MovesTo (passBreak c) := by
  unfold passBreak
  split
  · exact Cursor.MovesTo.advance.trans .skipOptional
  · exact .advance

theorem passComment_moves : c.MovesTo (passComment c) :=
  Cursor.MovesTo.advance.trans .skipWhile

theorem readWord_moves (read : readWord c = .ok (kind, after)) : c.MovesTo after := by
  unfold readWord at read
  dsimp only at read
  split at read
  · cases read
  · split at read
    · exact Cursor.MovesTo.skipWhile.trans (Literal.readString_moves read)
    · cases read
      exact .skipWhile
    · cases read
      exact .skipWhile

theorem readToken_moves {b : UInt8} (read : readToken c b = .ok (kind, after)) :
    c.MovesTo after := by
  unfold readToken at read
  split at read
  · exact Literal.readString_moves read
  · split at read
    · exact Literal.readNumber_moves read
    · split at read
      · exact readWord_moves read
      · unfold readOperator at read
        split at read <;> cases read
        exact .advanceBy

end Layout

/-! ### Tokens in order -/

/-- A token that is written somewhere; layout and the end of the text are not. -/
def TokenKind.isSolid (kind : TokenKind) : Bool :=
  !kind.isLayout && !kind.isEof

/-- The token begins and ends at places of the text, and is not empty if it is written there. -/
structure Placed (text : List UInt8) (t : Token TokenKind) : Prop where
  start : t.span.start.IsIn text
  stop : t.span.stop.IsIn text
  le : t.span.start.offset ≤ t.span.stop.offset
  solid : t.kind.isSolid = true → t.span.start.offset < t.span.stop.offset

/-- The token ends no earlier than at an offset, and if it is written it begins no earlier. -/
structure StandsAfter (offset : Nat) (t : Token TokenKind) : Prop where
  stop : offset ≤ t.span.stop.offset
  solid : t.kind.isSolid = true → offset ≤ t.span.start.offset

/-- Tokens with places, each after the ends of those before it. -/
structure InOrder (text : List UInt8) (tokens : List (Token TokenKind)) : Prop where
  placed : ∀ t ∈ tokens, Placed text t
  pairwise : tokens.Pairwise fun a b => StandsAfter a.span.stop.offset b

/-- The same of tokens that come last first, none of which ends past an offset. -/
structure UpTo (text : List UInt8) (offset : Nat) (tokens : List (Token TokenKind)) : Prop where
  placed : ∀ t ∈ tokens, Placed text t
  pairwise : tokens.Pairwise fun b a => StandsAfter a.span.stop.offset b
  stop : ∀ t ∈ tokens, t.span.stop.offset ≤ offset

section

variable {text : List UInt8} {m n : Nat} {p q : Pos} {kind : TokenKind} {t : Token TokenKind}
  {tokens : List (Token TokenKind)}

theorem Placed.span (h : Placed text t) (solid : t.kind.isSolid = true) : t.span.IsIn text :=
  ⟨h.start, h.stop, h.solid solid⟩

theorem StandsAfter.mono (h : StandsAfter n t) (le : m ≤ n) : StandsAfter m t :=
  ⟨Nat.le_trans le h.stop, fun solid => Nat.le_trans le (h.solid solid)⟩

namespace UpTo

theorem nil : UpTo text n [] :=
  ⟨List.forall_mem_nil _, List.Pairwise.nil, List.forall_mem_nil _⟩

theorem inOrder (h : UpTo text n tokens) : InOrder text tokens.reverse :=
  ⟨fun t inside => h.placed t (List.mem_reverse.1 inside), List.pairwise_reverse.2 h.pairwise⟩

theorem mono (h : UpTo text m tokens) (le : m ≤ n) : UpTo text n tokens :=
  ⟨h.placed, h.pairwise, fun t inside => Nat.le_trans (h.stop t inside) le⟩

theorem cons (h : UpTo text m tokens) (placed : Placed text t) (after : StandsAfter m t) :
    UpTo text t.span.stop.offset (t :: tokens) where
  placed := List.forall_mem_cons.2 ⟨placed, h.placed⟩
  pairwise := List.pairwise_cons.2 ⟨fun a inside => after.mono (h.stop a inside), h.pairwise⟩
  stop := List.forall_mem_cons.2
    ⟨Nat.le_refl _, fun a inside => Nat.le_trans (h.stop a inside) after.stop⟩

/-- Layout may begin before the last token has ended. -/
theorem layout (h : UpTo text m tokens) (start : p.IsIn text) (stop : q.IsIn text)
    (le : p.offset ≤ q.offset) (after : m ≤ q.offset) (empty : kind.isSolid = false) :
    UpTo text q.offset (⟨kind, ⟨p, q⟩⟩ :: tokens) :=
  h.cons (t := ⟨kind, ⟨p, q⟩⟩)
    ⟨start, stop, le, fun solid => absurd solid (ne_true_of_eq_false empty)⟩
    ⟨after, fun solid => absurd solid (ne_true_of_eq_false empty)⟩

/-- What is written comes after all that was. -/
theorem written (h : UpTo text m tokens) (start : p.IsIn text) (stop : q.IsIn text)
    (after : m ≤ p.offset) (less : p.offset < q.offset) :
    UpTo text q.offset (⟨kind, ⟨p, q⟩⟩ :: tokens) :=
  h.cons (t := ⟨kind, ⟨p, q⟩⟩) ⟨start, stop, Nat.le_of_lt less, fun _ => less⟩
    ⟨Nat.le_trans after (Nat.le_of_lt less), fun _ => after⟩

end UpTo

end

namespace Layout

variable {text : List UInt8} {s t : Layout}

/-- Reading has come to a cursor of the text, and no token so far ends past it. -/
structure Reached (text : List UInt8) (s : Layout) : Prop where
  cursor : s.cursor.IsIn text
  tokens : UpTo text s.cursor.pos.offset s.tokens

theorem upTo_closeBlocks {width : Nat} {p q : Pos} {levels : List Nat} (start : p.IsIn text)
    (stop : q.IsIn text) (le : p.offset ≤ q.offset) (h : UpTo text q.offset s.tokens) :
    UpTo text q.offset (closeBlocks width ⟨p, q⟩ s levels).tokens := by
  induction levels generalizing s with
  | nil => exact h
  | cons level outer ih =>
    rw [closeBlocks]
    split
    · exact ih (s := s.emit .dedent ⟨p, q⟩) (h.layout start stop le (Nat.le_refl _) rfl)
    · exact h

theorem upTo_indentTo {width : Nat} {p q : Pos} (start : p.IsIn text) (stop : q.IsIn text)
    (le : p.offset ≤ q.offset) (h : UpTo text q.offset s.tokens)
    (done : indentTo width ⟨p, q⟩ s = .ok t) : UpTo text q.offset t.tokens := by
  unfold indentTo at done
  dsimp only at done
  split at done
  · cases done
    exact h.layout start stop le (Nat.le_refl _) rfl
  · split at done <;> cases done
    exact upTo_closeBlocks start stop le h

/-- Without a token, reading may go on to any later cursor. -/
theorem Reached.moved (h : s.Reached text) {c : Cursor} (moves : s.cursor.MovesTo c)
    (here : t.cursor = c) (same : t.tokens = s.tokens) : t.Reached text :=
  ⟨here ▸ h.cursor.moved moves, here ▸ same ▸ h.tokens.mono moves.offset_le⟩

theorem Reached.beginLine (h : s.Reached text) {hasText : Bool}
    (done : beginLine s = .ok (t, hasText)) : t.Reached text := by
  have blanks : s.cursor.MovesTo s.cursor.skipBlanks := .skipWhile
  unfold Layout.beginLine at done
  dsimp only at done
  split at done
  · cases done
    exact h.moved blanks rfl rfl
  · cases done
    exact h.moved blanks rfl rfl
  · cases done
    exact h.moved (blanks.trans (passComment_moves.trans passBreak_moves)) rfl rfl
  iterate 2
    cases done
    exact h.moved (blanks.trans passBreak_moves) rfl rfl
  · obtain ⟨u, indented, ⟨⟩⟩ := ok_of_map done
    have later := h.cursor.moved blanks
    have tokens := upTo_indentTo (s := { s with cursor := s.cursor.skipBlanks, lineStart := false })
      h.cursor.pos later.pos blanks.offset_le (h.tokens.mono blanks.offset_le) indented
    have cursor := cursor_indentTo indented
    exact ⟨cursor ▸ later, cursor ▸ tokens⟩

theorem Reached.readItem (h : s.Reached text) (done : readItem s = .ok (some t)) :
    t.Reached text := by
  have blanks : s.cursor.MovesTo s.cursor.skipBlanks := .skipWhile
  have later := h.cursor.moved blanks
  unfold Layout.readItem at done
  dsimp only at done
  split at done
  · cases done
  · rename_i b here
    split at done
    · cases done
      exact h.moved (blanks.trans passComment_moves) rfl rfl
    · split at done
      · rename_i after passed
        cases done
        exact h.moved (blanks.trans ((Cursor.MovesTo.advance.trans .skipOptional).trans
          (.consume? passed))) rfl rfl
      · cases done
    iterate 2
      split at done
      · split at done <;> cases done
        · have passed := passBreak_moves (c := s.cursor.skipBlanks)
          exact ⟨later.moved passed, h.tokens.layout later.pos (later.moved passed).pos
            passed.offset_le (blanks.trans passed).offset_le rfl⟩
        · exact h.moved (blanks.trans passBreak_moves) rfl rfl
      · cases done
        exact h.moved (blanks.trans passBreak_moves) rfl rfl
    · obtain ⟨⟨kind, after⟩, read, ⟨⟩⟩ := ok_of_map done
      have passed := readToken_moves read
      exact ⟨later.moved passed, h.tokens.written later.pos (later.moved passed).pos
        blanks.offset_le (passed.offset_lt (length_readToken_lt here read))⟩

theorem Reached.step (h : s.Reached text) (done : step s = .ok (some t)) : t.Reached text := by
  unfold Layout.step at done
  split at done
  · split at done
    · cases done
    · rename_i begun
      cases done
      exact h.beginLine begun
    · rename_i begun
      exact (h.beginLine begun).readItem done
  · exact h.readItem done

/-- What is added at the end of the text stands there. -/
theorem Reached.finish (h : s.Reached text) {p : Pos} (stop : p.IsIn text)
    (later : s.cursor.pos.offset ≤ p.offset) : InOrder text (s.finish p) := by
  have added {tokens : List (Token TokenKind)} {kind : TokenKind} (h : UpTo text p.offset tokens)
      (empty : kind.isSolid = false) : UpTo text p.offset (⟨kind, .point p⟩ :: tokens) :=
    h.layout stop stop (Nat.le_refl _) (Nat.le_refl _) empty
  have line : UpTo text p.offset
      (if s.needsNewline then s.emit .newline (.point p) else s).tokens := by
    split
    · exact added (h.tokens.mono later) rfl
    · exact h.tokens.mono later
  have blocks (levels : List Nat) {u : Layout} (h : UpTo text p.offset u.tokens) :
      UpTo text p.offset (levels.foldl (fun s _ => s.emit .dedent (.point p)) u).tokens := by
    induction levels generalizing u with
    | nil => exact h
    | cons level outer ih => exact ih (u := u.emit .dedent (.point p)) (added h rfl)
  exact (added (blocks _ line) rfl).inOrder

theorem Reached.run {tokens : List (Token TokenKind)} (h : s.Reached text)
    (done : s.run = .ok tokens) : InOrder text tokens := by
  fun_induction Layout.run s with
  | case1 s e stop => cases done
  | case2 s stop =>
    cases done
    have blanks : s.cursor.MovesTo s.cursor.skipBlanks := .skipWhile
    exact h.finish (h.cursor.moved blanks).pos blanks.offset_le
  | case3 s next more less ih => exact ih (h.step more) done

end Layout

/-- The tokens of a text have places in it and are in order. -/
theorem tokens_inOrder {text : List UInt8} {tokens : List (Token TokenKind)}
    (done : Script.tokens text = .ok tokens) : InOrder text tokens :=
  Layout.Reached.run (s := .start text) ⟨.refl, .nil⟩ done

end ScoreScript.Script
