import ScoreScript.Proofs.Script.Layout
import ScoreScript.Proofs.Stateful

/-!
Where the tokens of a script end: with a token that stands for the end of the text, and nowhere
before it (`tokens_endsOnce`). No token that is read from the text is of that kind, and the steps
between tokens only add layout.
-/

namespace ScoreScript.Script

/-- The last token is the end of the text, and no other is. -/
def EndsOnce (tokens : List (Token TokenKind)) : Prop :=
  ∃ before last, tokens = before ++ [last] ∧ last.kind = .eof ∧
    ∀ t ∈ before, t.kind.isEof = false

/-- A number or a string. -/
def TokenKind.isLiteral : TokenKind → Bool
  | int _ | float _ | string _ _ => true
  | _ => false

namespace Literal

variable {c after : Cursor} {kind : TokenKind}

theorem string_of_closeString {form : StringForm} {start : Pos} {bytes : List UInt8}
    (read : closeString form start bytes c = .ok (kind, after)) :
    ∃ value, kind = .string value form.kind := by
  unfold closeString at read
  split at read <;> cases read
  exact ⟨_, rfl⟩

theorem string_of_stringRest {quotes : Quotes} {form : StringForm} {start : Pos}
    {bytes : List UInt8} (read : stringRest quotes form start c bytes = .ok (kind, after)) :
    ∃ value, kind = .string value form.kind := by
  fun_induction stringRest quotes form start c bytes with
  | case3 c bytes b rest here length part => exact string_of_closeString read
  | case4 c bytes b rest here more extra part less ih => exact ih read
  | _ => cases read

theorem string_of_readString {form : StringForm} (read : readString form c = .ok (kind, after)) :
    ∃ value, kind = .string value form.kind := by
  unfold readString at read
  split at read
  · cases read
  · exact string_of_stringRest read

theorem isLiteral_of_readString {form : StringForm} (read : readString form c = .ok (kind, after)) :
    kind.isLiteral = true := by
  obtain ⟨value, rfl⟩ := string_of_readString read
  rfl

/-- A number is a float, or its digits write it within 63 bits. -/
theorem cases_of_readNumber (read : readNumber c = .ok (kind, after)) :
    (∃ x, kind = .float x) ∨
      ∃ base digits n, kind = .int n ∧ number? base (twoTo 63) digits = some n := by
  obtain ⟨⟨stop, isFloat⟩, -, read⟩ := ok_of_bind read
  dsimp only at read
  split at read
  · rename_i written
    split at read
    · cases read
    · cases read
      unfold numberKind at written
      dsimp only at written
      split at written
      · obtain ⟨x, -, rfl⟩ := Option.map_eq_some_iff.1 written
        exact .inl ⟨x, rfl⟩
      · obtain ⟨n, number, rfl⟩ := Option.map_eq_some_iff.1 written
        exact .inr ⟨_, _, n, rfl, number⟩
  · cases read

theorem isLiteral_of_readNumber (read : readNumber c = .ok (kind, after)) :
    kind.isLiteral = true := by
  rcases cases_of_readNumber read with ⟨x, rfl⟩ | ⟨base, digits, n, rfl, -⟩ <;> rfl

end Literal

/-- A token that stands in the text: a number, a string, a word or an operator. -/
inductive TokenKind.IsRead : TokenKind → Prop where
  | int {base n : Nat} {digits : List Char} (written : number? base (twoTo 63) digits = some n) :
    IsRead (.int n)
  | float {x : Float} : IsRead (.float x)
  | string {value : String} {flavour : StringKind} : IsRead (.string value flavour)
  | name {id : String} : IsRead (.name id)
  | keyword {word : Keyword} : IsRead (.keyword word)
  | op {sign : Operator} : IsRead (.op sign)

namespace Layout

variable {c after : Cursor} {kind : TokenKind} {s t : Layout}

theorem isRead_of_readString {form : Literal.StringForm}
    (read : Literal.readString form c = .ok (kind, after)) :
    kind.IsRead := by
  obtain ⟨value, rfl⟩ := Literal.string_of_readString read
  exact .string

theorem isRead_of_readToken {b : UInt8} (read : readToken c b = .ok (kind, after)) :
    kind.IsRead := by
  unfold readToken at read
  split at read
  · exact isRead_of_readString read
  · split at read
    · rcases Literal.cases_of_readNumber read with ⟨x, rfl⟩ | ⟨base, digits, n, rfl, written⟩
      · exact .float
      · exact .int written
    · split at read
      · unfold readWord at read
        dsimp only at read
        split at read
        · cases read
        · split at read
          · exact isRead_of_readString read
          · cases read
            exact .keyword
          · cases read
            exact .name
      · unfold readOperator at read
        split at read <;> cases read
        exact .op

theorem isEof_of_readToken {b : UInt8} (read : readToken c b = .ok (kind, after)) :
    kind.isEof = false := by
  cases isRead_of_readToken read <;> rfl

/-- What holds of the tokens that only lay out the text, and of every token that is read. -/
structure Emits (P : TokenKind → Prop) : Prop where
  newline : P .newline
  indent : P .indent
  dedent : P .dedent
  read {c after : Cursor} {b : UInt8} {kind : TokenKind}
    (done : readToken c b = .ok (kind, after)) : P kind

/-- All the tokens so far are of such kinds. -/
def Emitted (P : TokenKind → Prop) (s : Layout) : Prop :=
  ∀ t ∈ s.tokens, P t.kind

section Emitted

variable {P : TokenKind → Prop}

theorem Emitted.emit (h : s.Emitted P) {span : Span} (next : P kind) :
    (s.emit kind span).Emitted P :=
  List.forall_mem_cons.2 ⟨next, h⟩

theorem Emitted.closeBlocks (emits : Emits P) (h : s.Emitted P) {width : Nat} {span : Span}
    {levels : List Nat} : (closeBlocks width span s levels).Emitted P := by
  induction levels generalizing s with
  | nil => exact h
  | cons level outer ih =>
    rw [Layout.closeBlocks]
    split
    · exact ih (h.emit emits.dedent)
    · exact h

theorem Emitted.indentTo (emits : Emits P) (h : s.Emitted P) {width : Nat} {span : Span}
    (done : indentTo width span s = .ok t) : t.Emitted P := by
  unfold Layout.indentTo at done
  dsimp only at done
  split at done
  · cases done
    exact h.emit emits.indent
  · split at done
    · cases done
      exact h.closeBlocks emits
    · cases done

theorem Emitted.beginLine (emits : Emits P) (h : s.Emitted P) {hasText : Bool}
    (done : beginLine s = .ok (t, hasText)) : t.Emitted P := by
  unfold Layout.beginLine at done
  dsimp only at done
  split at done
  iterate 5
    cases done
    exact h
  obtain ⟨u, indented, ⟨⟩⟩ := ok_of_map done
  refine Emitted.indentTo emits ?_ indented
  exact h

theorem Emitted.readItem (emits : Emits P) (h : s.Emitted P)
    (done : readItem s = .ok (some t)) : t.Emitted P := by
  unfold Layout.readItem at done
  dsimp only at done
  split at done
  · cases done
  · split at done
    · cases done
      exact h
    · split at done
      · cases done
        exact h
      · cases done
    iterate 2
      split at done
      · split at done <;> cases done
        · exact Emitted.emit h emits.newline
        · exact h
      · cases done
        exact h
    · obtain ⟨⟨kind, after⟩, read, ⟨⟩⟩ := ok_of_map done
      exact Emitted.emit h (emits.read read)

theorem Emitted.step (emits : Emits P) (h : s.Emitted P) (done : step s = .ok (some t)) :
    t.Emitted P := by
  unfold Layout.step at done
  split at done
  · split at done
    · cases done
    · rename_i begun
      cases done
      exact h.beginLine emits begun
    · rename_i begun
      exact (h.beginLine emits begun).readItem emits done
  · exact h.readItem emits done

/-- All tokens but the last, which stands for the end of the text. -/
def EndsAfter (P : TokenKind → Prop) (tokens : List (Token TokenKind)) : Prop :=
  ∃ before last, tokens = before ++ [last] ∧ last.kind = .eof ∧ ∀ t ∈ before, P t.kind

theorem Emitted.finish (emits : Emits P) (h : s.Emitted P) (stop : Pos) :
    EndsAfter P (s.finish stop) := by
  have line : (if s.needsNewline then s.emit .newline (.point stop) else s).Emitted P := by
    split
    · exact h.emit emits.newline
    · exact h
  have blocks (levels : List Nat) {u : Layout} (h : u.Emitted P) :
      (levels.foldl (fun s _ => s.emit .dedent (.point stop)) u).Emitted P := by
    induction levels generalizing u with
    | nil => exact h
    | cons level outer ih => exact ih (h.emit emits.dedent)
  refine ⟨_, ⟨.eof, .point stop⟩, List.reverse_cons, rfl, fun t inside => ?_⟩
  exact blocks _ line t (List.mem_reverse.1 inside)

theorem Emitted.run (emits : Emits P) {tokens : List (Token TokenKind)} (h : s.Emitted P)
    (done : s.run = .ok tokens) : EndsAfter P tokens := by
  fun_induction Layout.run s with
  | case1 s e stop => cases done
  | case2 s stop =>
    cases done
    exact h.finish emits _
  | case3 s next more less ih => exact ih (h.step emits more) done

end Emitted

/-- The end of the text is not among the tokens so far. -/
def Unended (s : Layout) : Prop :=
  ∀ t ∈ s.tokens, t.kind.isEof = false

theorem Unended.run {tokens : List (Token TokenKind)} (h : s.Unended) (done : s.run = .ok tokens) :
    EndsOnce tokens :=
  Emitted.run (P := fun kind => kind.isEof = false) ⟨rfl, rfl, rfl, isEof_of_readToken⟩ h done

end Layout

/-- What holds of all tokens that are emitted holds of all that a text has, but for its end. -/
theorem tokens_emitted {P : TokenKind → Prop} (emits : Layout.Emits P) {bytes : List UInt8}
    {tokens : List (Token TokenKind)} (done : Script.tokens bytes = .ok tokens) :
    Layout.EndsAfter P tokens :=
  Layout.Emitted.run emits (s := .start bytes) (List.forall_mem_nil _) done

theorem tokens_endsOnce {bytes : List UInt8} {tokens : List (Token TokenKind)}
    (done : Script.tokens bytes = .ok tokens) : EndsOnce tokens :=
  Layout.Unended.run (s := .start bytes) (List.forall_mem_nil _) done

end ScoreScript.Script
