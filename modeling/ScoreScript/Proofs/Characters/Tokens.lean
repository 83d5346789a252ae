import ScoreScript.Proofs.Parallel.Causes
import ScoreScript.Proofs.Text.Boundary
import ScoreScript.Proofs.Tokens.Step

/-!
Reading tokens of scripts splits no character. Names go on up to a byte below `0x80`. In a string
literal the bytes read so far and those still to be read make a text, as an escape is written in
ASCII and stands for characters. Main statements: `Layout.step_spares`, `tokens_ofText_fails`.
-/

namespace ScoreScript

open Cursor

section

variable {α : Type} {result : Except Error α}

/-- What fails for reasons of reading but never because bytes are no text. -/
theorem FailsReading.cause_ne {e : Error} (fails : FailsReading (· ≠ .utf8) result)
    (failed : result = .error e) : e.cause ≠ .lexical .utf8 := by
  intro broken
  have fits := fails e failed
  rw [broken] at fits
  exact fits rfl

theorem Spares.of_fails {good : α → Prop} (fails : FailsReading (· ≠ .utf8) result)
    (done : ∀ a, result = .ok a → good a) : Spares (.lexical .utf8) good result := by
  cases result with
  | ok a => exact done a rfl
  | error e => exact fails.cause_ne rfl

end

/-! ### Digits -/

theorem lt_of_digitsFrom? {base limit before n : Nat} {digits : List Char}
    (read : digitsFrom? base limit before digits = some n) : ∀ c ∈ digits, c.toNat < 128 := by
  induction digits generalizing before with
  | nil => simp
  | cons c digits ih =>
    obtain ⟨d, digit, more⟩ := Option.bind_eq_some_iff.1 read
    dsimp only at more
    split at more
    · exact List.forall_mem_cons.2 ⟨ascii_of_digit? digit, ih more⟩
    · cases more

theorem lt_of_number? {base limit n : Nat} {digits : List Char}
    (read : number? base limit digits = some n) : ∀ c ∈ digits, c.toNat < 128 := by
  unfold number? at read
  split at read
  · cases read
  · exact lt_of_digitsFrom? read

namespace Script

namespace Literal

variable {c after : Cursor} {bytes read rest : List UInt8} {quotes : Quotes} {form : StringForm}
  {start : Pos} {b : UInt8}

/-! ### Escapes -/

theorem lt_of_escapeOf {letter char : Char} (named : escapeOf letter = some char) :
    letter.toNat < 128 := by
  unfold escapeOf at named
  split at named <;> first | decide | cases named

theorem lt_of_hexCount {letter : Char} {count : Nat} (counted : hexCount letter = some count) :
    letter.toNat < 128 := by
  unfold hexCount at counted
  split at counted <;> first | decide | cases counted

/-- Bytes of which the characters shown for them are ASCII. -/
theorem ascii_of_map {bytes : List UInt8} (shown : ∀ c ∈ bytes.map Char.ofUInt8, c.toNat < 128) :
    ∀ b ∈ bytes, b < 0x80 :=
  fun _ member => ascii_of_ofUInt8 (shown _ (List.mem_map_of_mem member))

theorem ascii_of_head {letter : Char} (here : bytes.head?.map Char.ofUInt8 = some letter)
    (narrow : letter.toNat < 128) : ∀ b ∈ bytes.take 1, b < 0x80 := by
  obtain ⟨b, first, rfl⟩ := Option.map_eq_some_iff.1 here
  rw [List.take_one, first]
  exact List.forall_mem_singleton.2 (ascii_of_ofUInt8 narrow)

theorem ascii_take_succ {letter : Char} {count : Nat} (here : c.look = some letter)
    (narrow : letter.toNat < 128) (later : ∀ b ∈ (c.rest.drop 1).take count, b < 0x80) :
    ∀ b ∈ c.rest.take (count + 1), b < 0x80 := by
  rw [Nat.add_comm, List.take_add]
  exact List.forall_mem_append.2 ⟨ascii_of_head here narrow, later⟩

/-- An escape is written in ASCII and stands for characters. -/
theorem text_of_escaped {length : Nat} (escaped : Escaped c bytes length) :
    IsUtf8 bytes ∧ ∀ b ∈ c.rest.take length, b < 0x80 := by
  cases escaped with
  | feed here => exact ⟨.nil, ascii_of_head here (by decide)⟩
  | carriage here => exact ⟨.nil, ascii_of_head here (by decide)⟩
  | both here feed =>
    have second : (c.rest.drop 1).head?.map Char.ofUInt8 = some '\n' := by
      rw [List.head?_drop]
      exact feed
    exact ⟨.nil, ascii_take_succ here (by decide) (ascii_of_head second (by decide))⟩
  | letter here named => exact ⟨.encode _, ascii_of_head here (lt_of_escapeOf named)⟩
  | hexadecimal here counted all number =>
    exact ⟨.encode _, ascii_take_succ here (lt_of_hexCount counted)
      (ascii_of_map (lt_of_number? number))⟩
  | @octal char digits written number =>
    refine ⟨.encode _, ascii_of_map ?_⟩
    have leads : digits <+: c.rest.map Char.ofUInt8 :=
      written ▸ (List.takeWhile_prefix _).trans ((List.take_prefix 3 c.rest).map Char.ofUInt8)
    rw [List.map_take, ← List.prefix_iff_eq_take.1 leads]
    exact lt_of_number? number
  | unknown => exact ⟨.of_utf8 "\\", by simp⟩

/-! ### String literals -/

/-- Three quotes are passed. -/
theorem passes_triple (ascii : b < 0x80) (tripled : c.peekBytes 3 = some [b, b, b]) :
    c.PassesAscii (c.advanceBy 3) := by
  refine .advanceBy fun d member => ?_
  obtain ⟨leads, -⟩ := peekBytes_eq_some_iff.1 tripled
  have quotes : c.rest.take 3 = [b, b, b] := (List.prefix_iff_eq_take.1 leads).symm
  rw [quotes] at member
  simp only [List.mem_cons, List.not_mem_nil, or_false, or_self] at member
  exact member ▸ ascii

/-- Where a literal ends there are only quotes. -/
theorem ascii_of_close {n : Nat} (mark : quotes.mark < 0x80) (here : c.current = some b)
    (part : stringPart quotes form start c b = .ok (.close n)) :
    b < 0x80 ∧ c.PassesAscii (c.advanceBy n) := by
  obtain ⟨rfl, rfl | ⟨rfl, tripled⟩⟩ := close_of_stringPart part
  · exact ⟨mark, .advance here mark⟩
  · exact ⟨mark, passes_triple mark tripled⟩

/-- Before a closing quote as behind every part, what was read and what is left make a text. -/
theorem text_of_part {more : List UInt8} {extra : Nat} (here : c.current = some b)
    (text : IsUtf8 (read.reverse ++ c.rest)) (part : Part c b more extra) :
    IsUtf8 ((more.reverse ++ read).reverse ++ (c.advanceBy (extra + 1)).rest) := by
  obtain ⟨rest, split⟩ := List.head?_eq_some_iff.1 here
  -- A part that stands for the very bytes that it is written by leaves the text as it was.
  have kept (count : Nat) :
      IsUtf8 (((c.rest.take count).reverse ++ read).reverse ++ (c.advanceBy count).rest) := by
    rwa [List.reverse_append, List.reverse_reverse, List.append_assoc, rest_advanceBy,
      List.take_append_drop]
  cases part with
  | single =>
    have one := kept 1
    rwa [split, List.take_succ_cons, List.take_zero] at one
  | raw second =>
    have both := kept 2
    rw [Cursor.peek, split, List.getElem?_cons_succ] at second
    obtain ⟨rest', rfl⟩ := List.head?_eq_some_iff.1 (List.head?_eq_getElem?.trans second)
    rwa [split] at both
  | escaped slash escaped =>
    have behind : c.advance.rest = rest := by rw [Cursor.advance, rest_advanceBy, split]; rfl
    obtain ⟨value, ascii⟩ := text_of_escaped escaped
    rw [behind] at ascii
    rw [List.reverse_append, List.reverse_reverse]
    refine text.replace ?_ value
    rw [split, List.take_succ_cons, slash]
    exact List.forall_mem_cons.2 ⟨by decide, ascii⟩

theorem stringRest_spares (mark : quotes.mark < 0x80) (text : IsUtf8 (read.reverse ++ c.rest)) :
    Spares (.lexical .utf8) (fun found => IsUtf8 found.2.rest)
      (stringRest quotes form start c read) := by
  fun_induction stringRest quotes form start c read with
  | case1 => rintro ⟨⟩
  | case2 c read b rest here e failed => exact (stringPart_fails fun _ => id).cause_ne failed
  | case3 c read b rest here length part =>
    have current : c.current = some b := by rw [Cursor.current, here]; rfl
    obtain ⟨ascii, passes⟩ := ascii_of_close mark current part
    have cut := text
    rw [here] at cut
    obtain ⟨before, -⟩ := cut.behind_byte ascii
    obtain ⟨value, known⟩ := before.exists_read
    unfold closeString
    rw [known]
    refine IsUtf8.passes ?_ passes
    exact (text.cut (here ▸ .of_ascii ascii rest)).2
  | case4 c read b rest here more extra part less ih =>
    have current : c.current = some b := by rw [Cursor.current, here]; rfl
    exact ih (text_of_part current text (part_of_stringPart part))

/-- A literal whose quotes stand at the cursor. -/
theorem readString_spares (text : IsUtf8 c.rest) {mark : UInt8} (here : c.current = some mark)
    (ascii : mark < 0x80) :
    Spares (.lexical .utf8) (fun found => IsUtf8 found.2.rest) (readString form c) := by
  unfold readString
  rw [here]
  dsimp only
  refine stringRest_spares ascii ?_
  rw [List.reverse_nil, List.nil_append]
  refine text.passes ?_
  split
  · rename_i tripled
    exact passes_triple ascii (beq_iff_eq.1 tripled)
  · exact .advance here ascii

/-- All bytes beyond ASCII may stand in names. -/
theorem isIdentByte_of_le (wide : 0x80 ≤ b) : isIdentByte b = true := by
  simp [isIdentByte, isIdentStart, wide]

/-- What comes behind a number is not part of a name. -/
theorem readNumber_spares (text : IsUtf8 c.rest) :
    Spares (.lexical .utf8) (fun found => IsUtf8 found.2.rest) (readNumber c) := by
  refine .of_fails (readNumber_fails fun _ => id) ?_
  rintro ⟨kind, after⟩ done
  obtain ⟨count, moved⟩ := readNumber_moves done
  have stop : StartsCharacter after.rest := by
    unfold readNumber at done
    obtain ⟨⟨stop, isFloat⟩, -, done⟩ := ok_of_bind done
    dsimp only at done
    split at done
    · split at done
      · cases done
      · rename_i noName
        cases done
        rintro b first ⟨wide, -⟩
        refine noName ?_
        rw [Cursor.current, first]
        exact isIdentByte_of_le wide
    · cases done
  rw [moved, rest_advanceBy] at stop
  rw [moved, rest_advanceBy]
  rw [← List.take_append_drop count c.rest] at text
  exact (text.cut stop).2

end Literal

namespace Layout

variable {c d : Cursor} {s t : Layout} {b : UInt8}

/-! ### Tokens -/

theorem readWord_spares (text : IsUtf8 c.rest) :
    Spares (.lexical .utf8) (fun found => IsUtf8 found.2.rest) (readWord c) := by
  obtain ⟨name, after⟩ := text.skipWhile fun _ => Literal.isIdentByte_of_le
  obtain ⟨word, known⟩ := name.exists_read
  unfold readWord
  dsimp only
  rw [known]
  dsimp only
  split
  · rename_i chosen
    split at chosen
    · rename_i quoted
      rcases quoted with quoted | quoted
      · exact Literal.readString_spares after (current_of_look quoted) (by decide)
      · exact Literal.readString_spares after (current_of_look quoted) (by decide)
    · cases chosen
  · exact after
  · exact after

theorem ascii_operator (op : Operator) : ∀ b ∈ op.text.toList.map Char.toUInt8, b < 0x80 := by
  cases op <;> exact ascii_of_all rfl

theorem readOperator_spares (text : IsUtf8 c.rest) :
    Spares (.lexical .utf8) (fun found => IsUtf8 found.2.rest) (readOperator c b) := by
  refine .of_fails (readOperator_fails fun _ => id) ?_
  rintro ⟨kind, after⟩ done
  unfold readOperator at done
  split at done
  · rename_i op found
    cases done
    have start := List.find?_some (p := fun op : Operator => c.startsWith op.text) found
    exact text.passes (.of_startsWith start (ascii_operator op))
  · cases done

theorem readToken_spares (text : IsUtf8 c.rest) (here : c.current = some b) :
    Spares (.lexical .utf8) (fun found => IsUtf8 found.2.rest) (readToken c b) := by
  unfold readToken
  split
  · rename_i quote
    refine Literal.readString_spares text here ?_
    rcases quote with rfl | rfl <;> decide
  · split
    · exact Literal.readNumber_spares text
    · split
      · exact readWord_spares text
      · exact readOperator_spares text

/-! ### Steps -/

theorem IsBreak.ascii {bytes rest : List UInt8} (ends : IsBreak bytes rest) :
    ∀ b ∈ bytes, b < 0x80 := by
  cases ends <;> exact ascii_of_all rfl

theorem IsLineEnd.ascii {bytes rest : List UInt8} (ends : IsLineEnd bytes rest) :
    ∀ b ∈ bytes, b < 0x80 := by
  rcases ends with ends | ⟨rfl, -⟩
  · exact ends.ascii
  · simp

/-- A comment ends where a line does, so what is behind it is a text. -/
theorem text_of_comment {bytes rest : List UInt8} (comment : IsComment bytes rest)
    (text : IsUtf8 (bytes ++ rest)) : IsUtf8 rest := by
  refine (text.cut (.of_stops comment.stop fun b wide => ?_)).2
  have noFeed : b ≠ 0x0A := bne_iff_ne.1 (ne_of_le (by decide) wide)
  have noReturn : b ≠ 0x0D := bne_iff_ne.1 (ne_of_le (by decide) wide)
  simp [isLineBreak, noFeed, noReturn]

/-- Every step leaves a text. -/
theorem text_of_step (text : IsUtf8 s.cursor.rest) (step : Step s t) : IsUtf8 t.cursor.rest := by
  have blanks : IsUtf8 s.cursor.skipBlanks.rest :=
    text.passes (.skipWhile fun _ => isBlank_ascii)
  have breaks {bytes : List UInt8} {d : Cursor} (crosses : s.cursor.skipBlanks.Crosses bytes d)
      (ascii : ∀ b ∈ bytes, b < 0x80) : IsUtf8 d.rest :=
    blanks.passes ⟨bytes, ascii, crosses.rest⟩
  have token {b : UInt8} {found : TokenKind × Cursor}
      (here : s.cursor.skipBlanks.current = some b)
      (read : readToken s.cursor.skipBlanks b = .ok found) : IsUtf8 found.2.rest :=
    (readToken_spares blanks here).of_ok read
  cases step with
  | blankLine _ crosses ends => exact breaks crosses ends.ascii
  | commentLine _ crosses comment ends =>
    rw [crosses.rest, List.append_assoc] at blanks
    exact (text_of_comment comment blanks).behind ends.ascii
  | comment _ crosses comment =>
    rw [crosses.rest] at blanks
    exact text_of_comment comment blanks
  | join crosses ends =>
    exact breaks crosses (List.forall_mem_cons.2 ⟨by decide, (ends.isBreak []).ascii⟩)
  | lineBreak _ crosses ends => exact breaks crosses ends.ascii
  | lineEnd _ _ crosses ends =>
    have after := breaks crosses ends.ascii
    split
    · exact after
    · exact after
  | token _ here _ found => exact token here found
  | line _ here _ _ found => exact token here found

/-- A step fails as a token does, or for another reason than bytes that are no text. -/
theorem cause_of_step {e : Error} (text : IsUtf8 s.cursor.rest) (failed : step s = .error e) :
    e.cause ≠ .lexical .utf8 := by
  have blanks : IsUtf8 s.cursor.skipBlanks.rest :=
    text.passes (.skipWhile fun _ => isBlank_ascii)
  cases here : s.cursor.skipBlanks.current with
  | none =>
    rw [step_end here] at failed
    cases failed
  | some b =>
    have token {f : TokenKind × Cursor → Option Layout} :
        Spares (.lexical .utf8) (fun _ => True) ((readToken s.cursor.skipBlanks b).map f) :=
      (readToken_spares blanks here).map fun _ _ => trivial
    rcases byte_cases b with blank | rfl | rfl | ends | start
    · exact absurd blank (by simp [stops_skipWhile s.cursor isBlank b here])
    · rw [step_comment here] at failed
      cases failed
    · rw [step_join here] at failed
      split at failed <;> cases failed
      rintro ⟨⟩
    · rw [step_break here ends] at failed
      cases failed
    · by_cases begins : s.BeginsLine
      · rw [step_line begins here start] at failed
        have indented {width : Nat} {span : Span} {u : Layout} :
            Spares (.lexical .utf8) (fun _ => True) (indentTo width span u) :=
          .of_fails (indentTo_fails fun _ => id) fun _ _ => trivial
        exact (indented.bind fun _ _ => token).of_error failed
      · rw [step_token begins here start] at failed
        exact token.of_error failed

theorem step_spares (text : IsUtf8 s.cursor.rest) :
    Spares (.lexical .utf8) (fun next => ∀ t, next = some t → IsUtf8 t.cursor.rest) (step s) := by
  cases done : step s with
  | ok next =>
    rintro t rfl
    exact text_of_step text (step_eq_some_iff.1 done)
  | error e => exact cause_of_step text done

theorem run_spares (text : IsUtf8 s.cursor.rest) :
    Spares (.lexical .utf8) (fun _ => True) s.run := by
  fun_induction run s with
  | case1 s e failed => exact (step_spares text).of_error failed
  | case2 s ended => exact trivial
  | case3 s next here less ih => exact ih ((step_spares text).of_ok here next rfl)

end Layout

/-- The characters of a text may be wrong, but they are characters. -/
theorem tokens_ofText_fails (text : String) : FailsReading (· ≠ .utf8) (tokens (utf8 text)) := by
  have spares : Spares (.lexical .utf8) (fun _ => True) (tokens (utf8 text)) :=
    Layout.run_spares (.of_utf8 text)
  intro e failed
  have reading := tokens_fails e failed
  have whole := spares.of_error failed
  cases cause : e.cause with
  | lexical fault =>
    rintro rfl
    exact whole cause
  | _ => rwa [cause] at reading

end Script

end ScoreScript
