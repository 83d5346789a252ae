import ScoreScript.Proofs.Progress.Rounds

/-!
Literals that stand next to each other, without holes. Those of one kind come to one constant, and
one of the other kind is an error at its place (`PlainLiteral.settle`). The parser tells the kind of
what it has read from its contents, so that text literals without characters in front go unnoticed.
-/

namespace ScoreScript.Script

/-- A literal of text or of bytes. -/
structure PlainLiteral where
  value : String
  isBytes : Bool
  span : Span

/-- The error at a literal that does not go with those before it. -/
def mixedError (span : Span) : Error :=
  ⟨.grammar (.expected "bytes literal" "text literal"), span⟩

namespace PlainLiteral

def kind (l : PlainLiteral) : StringKind :=
  if l.isBytes then .bytes else .text

def token (l : PlainLiteral) : Token TokenKind :=
  ⟨.string l.value l.kind, l.span⟩

/-- A text literal without characters. -/
def isBlank (l : PlainLiteral) : Bool :=
  !l.isBytes && l.value.isEmpty

/-- The contents of literals of one kind, one after the other. -/
def contents (isBytes : Bool) (ls : List PlainLiteral) : Constant :=
  if isBytes then .bytes (ls.flatMap fun l => utf8 l.value)
  else .str (String.join (ls.map (·.value)))

/-- What literals come to by their kinds alone: their contents, or an error at the first one whose
kind is not that of the first. -/
def settle : List PlainLiteral → Except Error Constant
  | [] => .ok (.str "")
  | first :: rest =>
    match rest.find? (·.isBytes != first.isBytes) with
    | some odd => .error (mixedError odd.span)
    | none => .ok (contents first.isBytes (first :: rest))

theorem isBytes_of_isBlank {l : PlainLiteral} (blank : l.isBlank = true) : l.isBytes = false := by
  rw [isBlank, Bool.and_eq_true, Bool.not_eq_true'] at blank
  exact blank.1

theorem join_blanks {ls : List PlainLiteral} (blank : ∀ l ∈ ls, l.isBlank = true) :
    String.join (ls.map (·.value)) = "" := by
  induction ls with
  | nil => rfl
  | cons l rest ih =>
    have none := blank l List.mem_cons_self
    rw [isBlank, Bool.and_eq_true, String.isEmpty_iff] at none
    rw [List.map_cons, String.join_cons, none.2,
      ih fun other member => blank other (List.mem_cons_of_mem l member), String.empty_append]

/-- Behind a text literal the first bytes literal is the one of another kind. -/
theorem settle_text {ls : List PlainLiteral} (text : ∀ first ∈ ls.head?, first.isBytes = false) :
    settle ls =
      match ls.find? (·.isBytes) with
      | some odd => .error (mixedError odd.span)
      | none => .ok (contents false ls) := by
  cases ls with
  | nil => rfl
  | cons first rest =>
    have kind : first.isBytes = false := text first rfl
    simp only [settle, List.find?_cons, kind, Bool.bne_false]

/-- Blank literals in front of a text literal do not matter. -/
theorem settle_append {blanks kept : List PlainLiteral} (blank : ∀ l ∈ blanks, l.isBlank = true)
    (text : ∀ first ∈ kept.head?, first.isBytes = false) :
    settle (blanks ++ kept) = settle kept := by
  have texts : ∀ first ∈ (blanks ++ kept).head?, first.isBytes = false := by
    cases blanks with
    | nil => exact text
    | cons l blanks =>
      rintro _ ⟨⟩
      exact isBytes_of_isBlank (blank l List.mem_cons_self)
  have none : blanks.find? (·.isBytes) = none :=
    List.find?_eq_none.2 fun l member => by simp [isBytes_of_isBlank (blank l member)]
  have found : (blanks ++ kept).find? (·.isBytes) = kept.find? (·.isBytes) := by
    rw [List.find?_append, none, Option.none_or]
  have same : contents false (blanks ++ kept) = contents false kept := by
    rw [contents, contents, if_neg Bool.false_ne_true, if_neg Bool.false_ne_true,
      List.map_append, String.join_append, join_blanks blank, String.empty_append]
  rw [settle_text texts, settle_text text, found, same]

/-- Blank literals in front matter only where bytes come right after them. -/
theorem settle_dropWhile {ls : List PlainLiteral}
    (plain : (∀ first ∈ ls.head?, first.isBlank = false) ∨
      ∀ first ∈ (ls.dropWhile (·.isBlank)).head?, first.isBytes = false) :
    settle (ls.dropWhile (·.isBlank)) = settle ls := by
  rcases plain with filled | text
  · cases ls with
    | nil => rfl
    | cons first rest => rw [List.dropWhile_cons, filled first rfl, if_neg Bool.false_ne_true]
  · calc
      settle (ls.dropWhile (·.isBlank)) =
          settle (ls.takeWhile (·.isBlank) ++ ls.dropWhile (·.isBlank)) :=
        (settle_append (fun l member => List.mem_takeWhile_imp member) text).symm
      _ = settle ls := by rw [List.takeWhile_append_dropWhile]

end PlainLiteral

namespace Joining

open PlainLiteral (contents settle)

/-- One more literal without holes is joined to those before it. -/
def join (j : Joining) (l : PlainLiteral) : Except Error Joining :=
  if l.isBytes then
    if !j.text.isEmpty || j.isFormat then .error (mixedError l.span)
    else .ok { j with bytes := some (j.bytes.getD [] ++ utf8 l.value) }
  else if j.bytes.isSome then .error (mixedError l.span)
  else .ok { j with text := j.text ++ l.value }

/-- What has been joined when the literals were all of one kind. -/
def ofPlain (start : Pos) (isBytes : Bool) (ls : List PlainLiteral) : Joining :=
  if isBytes then ⟨[], "", some (ls.flatMap fun l => utf8 l.value), false, start⟩
  else ⟨[], String.join (ls.map (·.value)), none, false, start⟩

variable {start : Pos} {isBytes : Bool} {front rest : List PlainLiteral}

theorem toExpr_ofPlain (start : Pos) (isBytes : Bool) (ls : List PlainLiteral) (span : Span) :
    (ofPlain start isBytes ls).toExpr span = .constant (contents isBytes ls) span := by
  cases isBytes <;> rfl

/-- Something in what has been read tells its kind. -/
def Tells (isBytes : Bool) (ls : List PlainLiteral) : Prop :=
  isBytes = false → (String.join (ls.map (·.value))).isEmpty = false

theorem Tells.append (h : Tells isBytes front) (more : List PlainLiteral) :
    Tells isBytes (front ++ more) := by
  intro text
  have filled := h text
  rw [Bool.eq_false_iff, Ne, String.isEmpty_iff] at filled ⊢
  rw [List.map_append, String.join_append, String.append_eq_empty_iff]
  exact fun both => filled both.1

theorem join_ofPlain (tells : Tells isBytes front) (l : PlainLiteral) :
    (ofPlain start isBytes front).join l =
      if l.isBytes != isBytes then .error (mixedError l.span)
      else .ok (ofPlain start isBytes (front ++ [l])) := by
  cases isBytes with
  | true =>
    cases kind : l.isBytes with
    | true => simp [join, ofPlain, kind]
    | false => simp [join, ofPlain, kind]
  | false =>
    have filled := tells rfl
    cases kind : l.isBytes with
    | true => simp [join, ofPlain, kind, filled]
    | false => simp [join, ofPlain, kind, String.join_append]

/-- Once its kind is told, all that follows has to be of this kind. -/
theorem foldlM_ofPlain (tells : Tells isBytes front) :
    rest.foldlM join (ofPlain start isBytes front) =
      match rest.find? (·.isBytes != isBytes) with
      | some odd => .error (mixedError odd.span)
      | none => .ok (ofPlain start isBytes (front ++ rest)) := by
  induction rest generalizing front with
  | nil => rw [List.append_nil]; rfl
  | cons l rest ih =>
    rw [List.foldlM_cons, join_ofPlain tells, List.find?_cons]
    cases differs : l.isBytes != isBytes with
    | true => rfl
    | false =>
      rw [if_neg Bool.false_ne_true]
      have later := ih (tells.append [l])
      rw [List.append_assoc, List.singleton_append] at later
      exact later

theorem join_blank {l : PlainLiteral} (blank : l.isBlank = true) :
    (empty start).join l = .ok (empty start) := by
  rw [PlainLiteral.isBlank, Bool.and_eq_true, Bool.not_eq_true', String.isEmpty_iff] at blank
  simp [join, empty, blank.1, blank.2]

/-- Blank literals in front leave no trace. -/
theorem foldlM_dropWhile (ls : List PlainLiteral) :
    ls.foldlM join (empty start) = (ls.dropWhile (·.isBlank)).foldlM join (empty start) := by
  induction ls with
  | nil => rfl
  | cons l rest ih =>
    rw [List.dropWhile_cons]
    split
    · rename_i blank
      rw [List.foldlM_cons, join_blank blank]
      exact ih
    · rfl

theorem foldlM_settle (first : PlainLiteral) (filled : first.isBlank = false) (span : Span) :
    ((first :: rest).foldlM join (empty start)).map (·.toExpr span) =
      (settle (first :: rest)).map (.constant · span) := by
  have tells : Tells first.isBytes [first] := by
    intro text
    rw [PlainLiteral.isBlank, text] at filled
    simpa using filled
  have opened : (empty start).join first = .ok (ofPlain start first.isBytes [first]) := by
    cases kind : first.isBytes <;> simp [join, empty, ofPlain, kind]
  rw [List.foldlM_cons, opened]
  change ((rest.foldlM join (ofPlain start first.isBytes [first]))).map _ = _
  rw [foldlM_ofPlain tells, settle]
  cases rest.find? (·.isBytes != first.isBytes) with
  | some odd => rfl
  | none => exact congrArg Except.ok (toExpr_ofPlain start first.isBytes (first :: rest) span)

/-- What is put together is what the literals come to after those in front that are blank. -/
theorem foldlM_join (ls : List PlainLiteral) (span : Span) :
    (ls.foldlM join (empty start)).map (·.toExpr span) =
      (settle (ls.dropWhile (·.isBlank))).map (.constant · span) := by
  rw [foldlM_dropWhile]
  cases kept : ls.dropWhile (·.isBlank) with
  | nil => rfl
  | cons first rest =>
    have filled := List.head?_dropWhile_not (·.isBlank) ls
    rw [kept] at filled
    exact foldlM_settle first (by simpa using filled) span

end Joining

namespace Grammar

open Rule PlainLiteral

variable {k : Knot} {n : Nesting} {s : Stream} {ls : List PlainLiteral}
  {after : List (Token TokenKind)}

/-- No string literal comes next. -/
def EndsStrings (after : List (Token TokenKind)) : Prop :=
  ∀ token ∈ after.head?, ∀ value kind, token.kind ≠ .string value kind

theorem joinLiteral_plain (j : Joining) (l : PlainLiteral) :
    joinLiteral k j l.value l.kind l.span n s = (j.join l).map (·, s) := by
  obtain ⟨parts, text, bytes, isFormat, start⟩ := j
  unfold PlainLiteral.kind Joining.join
  cases l.isBytes with
  | true =>
    change (if (!text.isEmpty || isFormat) = true then _ else _ : Rule Joining) n s = _
    cases !text.isEmpty || isFormat <;> rfl
  | false => cases bytes <;> rfl

theorem nextLiteral_plain (j : Joining) (l : PlainLiteral) {more : List (Token TokenKind)}
    (ahead : s.rest = l.token :: more) :
    ∃ t, t.rest = more ∧ t.size < s.size ∧
      nextLiteral k j n s = (j.join l).map fun j' => (some j', t) := by
  have current : s.current = l.token := by
    rw [Stream.current, ahead]
    rfl
  refine ⟨s.advance, ?_, Stream.size_advance_lt (by rw [current]; rfl), ?_⟩
  · rw [Stream.advance, current]
    simp [token, TokenKind.isEof, ahead]
  · rw [nextLiteral, look_bind, current]
    change (some <$> joinLiteral k j l.value l.kind s.current.span) n s.advance = _
    rw [current, map_eq_pure_bind]
    have joined := joinLiteral_plain (k := k) (n := n) (s := s.advance) j l
    cases read : j.join l with
    | error e =>
      rw [read] at joined
      exact bind_of_error joined
    | ok j' =>
      rw [read] at joined
      exact bind_of_ok joined

theorem nextLiteral_ended (j : Joining) (ended : EndsStrings s.rest) :
    nextLiteral k j n s = .ok (none, s) := by
  have other : ∀ value kind, s.current.kind ≠ .string value kind := by
    intro value kind string
    rw [Stream.current] at string
    cases rest : s.rest with
    | nil =>
      rw [rest] at string
      cases string
    | cons token more =>
      rw [rest] at string
      exact ended token (by rw [rest]; rfl) value kind string
  rw [nextLiteral, look_bind]
  cases current : s.current.kind with
  | string value kind => exact absurd current (other value kind)
  | _ => rfl

/-- The loop joins one literal after the other, up to where they end. -/
theorem loop_plain (j : Joining) (ahead : s.rest = ls.map token ++ after)
    (ended : EndsStrings after) :
    ∃ t, t.rest = after ∧
      loop (nextLiteral k) j n s = (ls.foldlM Joining.join j).map (·, t) := by
  induction ls generalizing j s with
  | nil =>
    rw [List.map_nil, List.nil_append] at ahead
    exact ⟨s, ahead, loop_of_none (nextLiteral_ended j (ahead ▸ ended))⟩
  | cons l rest ih =>
    obtain ⟨t, left, less, read⟩ := nextLiteral_plain (k := k) (n := n) j l ahead
    rw [List.foldlM_cons]
    cases joined : j.join l with
    | error e =>
      obtain ⟨u, last, -⟩ := ih j left
      rw [joined] at read
      exact ⟨u, last, loop_of_error read⟩
    | ok j' =>
      obtain ⟨u, last, same⟩ := ih j' left
      rw [joined] at read
      exact ⟨u, last, (loop_of_some read less).trans same⟩

theorem strings_plain (ahead : s.rest = ls.map token ++ after) (ended : EndsStrings after) :
    ∃ span t, t.rest = after ∧ strings k n s =
      (settle (ls.dropWhile (·.isBlank))).map fun value => (.constant value span, t) := by
  let start := s.current.span.start
  obtain ⟨t, left, read⟩ := loop_plain (k := k) (n := n) (Joining.empty start) ahead ended
  let span : Span := ⟨start, t.previous.later start⟩
  have joined : strings k n s =
      ((ls.foldlM Joining.join (Joining.empty start)).map (·.toExpr span)).map (·, t) := by
    rw [strings_eq, here_bind]
    cases folded : ls.foldlM Joining.join (Joining.empty start) with
    | error e => exact bind_of_error (by rw [read, folded]; rfl)
    | ok j => exact bind_of_ok (by rw [read, folded]; rfl)
  refine ⟨span, t, left, ?_⟩
  rw [joined, Joining.foldlM_join]
  cases settle (ls.dropWhile (·.isBlank)) <;> rfl

/-- Literals next to each other come to one constant if they are of one kind, and otherwise to an
error at the first one of another kind than the first, where text literals without characters in
front do not count. So their kinds alone decide, unless such literals come first and right after
them a bytes literal. -/
theorem strings_settle (ahead : s.rest = ls.map token ++ after) (ended : EndsStrings after) :
    ∃ span t, t.rest = after ∧
      strings k n s =
        (settle (ls.dropWhile (·.isBlank))).map (fun value => (.constant value span, t)) ∧
      ((∀ first ∈ ls.head?, first.isBlank = false) ∨
          (∀ first ∈ (ls.dropWhile (·.isBlank)).head?, first.isBytes = false) →
        strings k n s = (settle ls).map fun value => (.constant value span, t)) := by
  obtain ⟨span, t, left, read⟩ := strings_plain (k := k) (n := n) ahead ended
  refine ⟨span, t, left, read, fun plain => ?_⟩
  rw [read, settle_dropWhile plain]

/-- The literals of `'a' "" b'x'`. -/
def mixed : List PlainLiteral :=
  [⟨"a", false, ⟨⟨0, 1, 1⟩, ⟨3, 1, 4⟩⟩⟩, ⟨"", false, ⟨⟨4, 1, 5⟩, ⟨6, 1, 7⟩⟩⟩,
    ⟨"x", true, ⟨⟨7, 1, 8⟩, ⟨11, 1, 12⟩⟩⟩]

theorem strings_settle_mixed :
    strings (knot (readHole 0) 0) ⟨0, 0⟩
        (.ofTokens (mixed.map token ++ [⟨.newline, ⟨⟨11, 1, 12⟩, ⟨11, 1, 12⟩⟩⟩])) =
      .error (mixedError ⟨⟨7, 1, 8⟩, ⟨11, 1, 12⟩⟩) := by
  let tokens := mixed.map token ++ [⟨.newline, ⟨⟨11, 1, 12⟩, ⟨11, 1, 12⟩⟩⟩]
  have ahead : (Stream.ofTokens tokens).rest = tokens := rfl
  obtain ⟨span, t, -, -, plain⟩ := strings_settle (k := knot (readHole 0) 0) (n := ⟨0, 0⟩) ahead
    (by rintro token ⟨⟩ value kind ⟨⟩)
  exact plain (.inl (by rintro first ⟨⟩; rfl))

/-- The literals of `'' b'x'`. -/
def blankBytes : List PlainLiteral :=
  [⟨"", false, ⟨⟨0, 1, 1⟩, ⟨2, 1, 3⟩⟩⟩, ⟨"x", true, ⟨⟨3, 1, 4⟩, ⟨7, 1, 8⟩⟩⟩]

/-- Kinds alone do not decide: bytes are read where a text literal without characters stands
before them. -/
theorem not_strings_settle :
    ¬∀ (k : Knot) (n : Nesting) (s : Stream) (ls : List PlainLiteral)
        (after : List (Token TokenKind)), ls ≠ [] → s.rest = ls.map token ++ after →
        EndsStrings after →
      ∃ span t, strings k n s = (settle ls).map fun value => (.constant value span, t) := by
  intro decides
  obtain ⟨span, t, refused⟩ := decides (knot (readHole 0) 0) ⟨0, 0⟩
    (.ofTokens (blankBytes.map token)) blankBytes [] nofun (List.append_nil _).symm nofun
  have read : (strings (knot (readHole 0) 0) ⟨0, 0⟩
      (.ofTokens (blankBytes.map token))).toOption.isSome = true := by
    decide +kernel
  rw [refused] at read
  cases read

end Grammar

end ScoreScript.Script
