import Mathlib.Algebra.Group.Nat.Defs
import ScoreScript.Proofs.Holes.Hole
import ScoreScript.Proofs.Text.Utf8
import ScoreScript.Proofs.Tokens.Step

/-!
Holes are shorter than the text around them. The source of a hole stands in the value of its literal
behind a brace, and the value of a literal takes no more bytes than its spelling, which has quotes
besides. So reading a hole as a text of its own comes to an end (`length_source_lt`).
-/

namespace ScoreScript

open Cursor

theorem length_utf8_le_of_sublist {short long : List Char} (h : short.Sublist long) :
    (utf8 (String.ofList short)).length ≤ (utf8 (String.ofList long)).length := by
  rw [utf8_ofList, utf8_ofList]
  induction h with
  | slnil => exact Nat.le_refl _
  | cons c _ ih =>
    rw [List.flatMap_cons, List.length_append]
    exact Nat.le_trans ih (Nat.le_add_left _ _)
  | cons_cons c _ ih =>
    rw [List.flatMap_cons, List.flatMap_cons, List.length_append, List.length_append]
    exact Nat.add_le_add_left ih _

theorem length_utf8_trim_le (text : String) : (utf8 (trim text)).length ≤ (utf8 text).length := by
  have kept : ((text.toList.dropWhile isSpace).reverse.dropWhile isSpace).reverse.Sublist
      text.toList := by
    rw [← List.reverse_sublist, List.reverse_reverse]
    exact (List.dropWhile_sublist _).trans (List.dropWhile_sublist _).reverse
  have le := length_utf8_le_of_sublist kept
  rwa [String.ofList_toList] at le

/-! ### Numbers -/

theorem lt_of_digit?_eq {base d : Nat} {c : Char} (digit : digit? base c = some d) : d < base := by
  obtain ⟨less, same⟩ := Option.ite_none_right_eq_some.1 digit
  exact Option.some.inj same ▸ less

theorem digitsFrom?_lt {base limit before n : Nat} {digits : List Char}
    (read : digitsFrom? base limit before digits = some n) :
    n < (before + 1) * base ^ digits.length := by
  induction digits generalizing before with
  | nil =>
    cases read
    rw [List.length_nil, Nat.pow_zero, Nat.mul_one]
    exact Nat.lt_succ_self _
  | cons c digits ih =>
    obtain ⟨d, digit, more⟩ := Option.bind_eq_some_iff.1 read
    dsimp only at more
    split at more
    · have less := lt_of_digit?_eq digit
      calc
        n < (before * base + d + 1) * base ^ digits.length := ih more
        _ ≤ ((before + 1) * base) * base ^ digits.length := by
          refine Nat.mul_le_mul_right _ ?_
          rw [Nat.succ_mul]
          omega
        _ = (before + 1) * base ^ (c :: digits).length := by
          rw [List.length_cons, Nat.pow_succ', Nat.mul_assoc]
    · cases more

theorem number?_lt {base limit n : Nat} {digits : List Char}
    (read : number? base limit digits = some n) : n < base ^ digits.length := by
  obtain ⟨-, some_digits⟩ := Option.ite_none_left_eq_some.1 read
  have less := digitsFrom?_lt some_digits
  rwa [Nat.zero_add, Nat.one_mul] at less

namespace Script

/-! ### Holes in a format string -/

theorem pieceHoles_append (first second : List FormatPiece) :
    pieceHoles (first ++ second) = pieceHoles first ++ pieceHoles second := by
  induction first with
  | nil => simp [pieceHoles]
  | cons piece rest ih => rw [List.cons_append, pieceHoles, pieceHoles, ih, List.append_assoc]

namespace FormatPiece

theorem pieceHoles_run (reversed : List Char) : pieceHoles (run reversed) = [] := by
  unfold run
  split
  · rw [pieceHoles]
  · rw [pieceHoles, pieceHoles, holes, List.append_nil]

/-- What a hole ends with is behind its source. -/
theorem readConversion_within (source : String) (text : List Char) :
    (readConversion source text).source = source ∧ (readConversion source text).rest <:+ text := by
  unfold readConversion
  split
  · exact ⟨rfl, List.nil_suffix⟩
  · rename_i c rest
    split
    · exact ⟨rfl, (List.tail_suffix rest).trans (List.suffix_cons c rest)⟩
    · exact ⟨rfl, List.suffix_cons c rest⟩

/-- The source of a hole is what is passed up to its end. -/
theorem readHead_within (quote : Option Char) (depth : Nat) (source text : List Char) :
    ∃ passed left, text = passed ++ left ∧
      (readHead quote depth source text).source.toList = source.reverse ++ passed ∧
      (readHead quote depth source text).rest <:+ left := by
  induction text generalizing quote depth source with
  | nil => exact ⟨[], [], rfl, by rw [readHead, String.toList_ofList, List.append_nil],
      List.nil_suffix⟩
  | cons c rest ih =>
    have goesOn (quote : Option Char) (depth : Nat) : ∃ passed left, c :: rest = passed ++ left ∧
        (readHead quote depth (c :: source) rest).source.toList = source.reverse ++ passed ∧
        (readHead quote depth (c :: source) rest).rest <:+ left := by
      obtain ⟨passed, left, rfl, same, later⟩ := ih quote depth (c :: source)
      refine ⟨c :: passed, left, rfl, ?_, later⟩
      rw [same, List.reverse_cons, List.append_assoc, List.singleton_append]
    have stops (head : Head) (same : head.source = String.ofList source.reverse)
        (later : head.rest <:+ rest) : ∃ passed left, c :: rest = passed ++ left ∧
        head.source.toList = source.reverse ++ passed ∧ head.rest <:+ left :=
      ⟨[], c :: rest, rfl, by rw [same, String.toList_ofList, List.append_nil],
        later.trans (List.suffix_cons c rest)⟩
    obtain ⟨same, later⟩ := readConversion_within (String.ofList source.reverse) rest
    unfold readHead
    split
    · exact goesOn _ _
    · split
      · exact goesOn _ _
      split
      · exact goesOn _ _
      split
      · exact goesOn _ _
      split
      · exact stops _ rfl (List.suffix_refl _)
      split
      · exact stops _ same later
      split
      · exact stops _ rfl (List.suffix_refl _)
      · exact goesOn _ _

/-- A hole begins with its brace and is a piece of the text from there on. -/
theorem readHead_behind (rest : List Char) :
    (readHead none 0 [] rest).rest <:+ '{' :: rest ∧
      ('{' :: (readHead none 0 [] rest).source.toList).Sublist ('{' :: rest) := by
  obtain ⟨passed, left, rfl, same, later⟩ := readHead_within none 0 [] rest
  refine ⟨later.trans ((List.suffix_append passed left).trans (List.suffix_cons _ _)), ?_⟩
  rw [same]
  exact (List.sublist_append_left passed left).cons_cons _

/-- Each hole stands in the text behind its brace, and what is left of the text is its end. -/
structure Pieces.Within {text : List Char} (p : Pieces text) : Prop where
  rest : p.rest <:+ text
  holes : ∀ h ∈ pieceHoles p.pieces, ('{' :: h.source.toList).Sublist text

theorem Pieces.Within.after {text later : List Char} {p : Pieces later} (h : p.Within)
    {first : List FormatPiece} (shorter : later.length ≤ text.length) (behind : later <:+ text)
    (before : ∀ h ∈ pieceHoles first, ('{' :: h.source.toList).Sublist text) :
    (p.after first shorter).Within := by
  refine ⟨h.rest.trans behind, ?_⟩
  rw [Pieces.after, pieceHoles_append, List.forall_mem_append]
  exact ⟨before, fun q member => (h.holes q member).trans behind.sublist⟩

theorem readPieces_within {spec : (text : List Char) → Option (Pieces text)} {inSpec : Bool}
    (inner : ∀ text p, spec text = some p → p.Within) {reversed text : List Char}
    {p : Pieces text} (read : readPieces spec inSpec reversed text = some p) : p.Within := by
  have plain (reversed : List Char) (text : List Char) :
      ∀ h ∈ pieceHoles (run reversed), ('{' :: h.source.toList).Sublist text := by
    rw [pieceHoles_run]
    exact List.forall_mem_nil _
  fun_induction readPieces spec inSpec reversed text with
  | case1 reversed =>
    cases read
    exact ⟨List.nil_suffix, plain _ _⟩
  | case2 reversed c rest =>
    cases read
    exact ⟨List.suffix_refl _, plain _ _⟩
  | case3 reversed c rest _ _ doubled ih =>
    obtain ⟨q, later, rfl⟩ := Option.map_eq_some_iff.1 read
    exact (ih later).after _ ((List.tail_suffix rest).trans (List.suffix_cons c rest)) nofun
  | case4 => cases read
  | case5 reversed c rest _ _ _ brace =>
    rename_i found _ ih
    obtain ⟨q, later, rfl⟩ := Option.map_eq_some_iff.1 read
    obtain rfl : c = '{' := beq_iff_eq.1 brace
    obtain ⟨behind, stands⟩ := readHead_behind rest
    obtain ⟨left, holes⟩ := inner _ _ found
    refine (ih later).after _ ((List.tail_suffix _).trans (left.trans behind)) ?_
    rw [pieceHoles_append, List.forall_mem_append, pieceHoles, pieceHoles, List.append_nil,
      FormatPiece.holes, List.forall_mem_cons]
    exact ⟨plain _ _, stands, fun h member => (holes h member).trans behind.sublist⟩
  | case6 reversed c rest _ _ _ brace =>
    rename_i ih
    obtain ⟨q, later, rfl⟩ := Option.map_eq_some_iff.1 read
    obtain rfl : c = '{' := beq_iff_eq.1 brace
    obtain ⟨behind, stands⟩ := readHead_behind rest
    refine (ih later).after _ behind ?_
    rw [pieceHoles_append, List.forall_mem_append, pieceHoles, pieceHoles, List.append_nil,
      FormatPiece.holes, List.forall_mem_singleton]
    exact ⟨plain _ _, stands⟩
  | case7 reversed c rest _ _ _ _ ih =>
    obtain ⟨q, later, rfl⟩ := Option.map_eq_some_iff.1 read
    exact (ih later).after _ (List.suffix_cons c rest) nofun

theorem readSpec_within {levels : Nat} {text : List Char} {p : Pieces text}
    (read : readSpec levels text = some p) : p.Within := by
  induction levels generalizing text with
  | zero => cases read
  | succ levels ih => exact readPieces_within (fun _ _ found => ih found) read

theorem ofText?_within {text : String} {pieces : List FormatPiece}
    (read : ofText? text = some pieces) :
    ∀ h ∈ pieceHoles pieces, ('{' :: h.source.toList).Sublist text.toList := by
  obtain ⟨p, found, rfl⟩ := Option.map_eq_some_iff.1 read
  exact (readPieces_within (fun _ _ found => readSpec_within found) found).holes

end FormatPiece

/-- A brace stands before the source of a hole. -/
theorem length_hole_lt {value : String} {kind : StringKind} {h : Hole}
    (inside : h ∈ (TokenKind.string value kind).holes) :
    (utf8 h.source).length < (utf8 value).length := by
  cases kind with
  | text | bytes => cases inside
  | format =>
    rw [TokenKind.holes] at inside
    cases read : FormatPiece.ofText? value with
    | none =>
      rw [read] at inside
      cases inside
    | some pieces =>
      rw [read] at inside
      have le := length_utf8_le_of_sublist (FormatPiece.ofText?_within read h inside)
      rw [utf8_ofList, List.flatMap_cons, List.length_append, String.ofList_toList] at le
      exact Nat.lt_of_lt_of_le (Nat.lt_add_of_pos_left (by decide)) le

/-! ### The value of a literal -/

namespace Literal

variable {c after : Cursor} {bytes read : List UInt8} {quotes : Quotes} {form : StringForm}
  {start : Pos} {b : UInt8}

theorem length_encode_le (c : Char) : (String.utf8EncodeChar c).length ≤ 4 := by
  rw [String.length_utf8EncodeChar]
  exact c.utf8Size_le_four

theorem length_of_escapeOf {letter char : Char} (named : escapeOf letter = some char) :
    (String.utf8EncodeChar char).length = 1 := by
  unfold escapeOf at named
  split at named <;> first | (cases named; rfl) | cases named

theorem two_le_of_hexCount {letter : Char} {count : Nat} (counted : hexCount letter = some count) :
    2 ≤ count := by
  unfold hexCount at counted
  split at counted <;> first | (cases counted; decide) | cases counted

/-- An escape takes no fewer bytes, with its backslash, than it stands for. -/
theorem length_escaped_le {length : Nat} (escaped : Escaped c bytes length) :
    bytes.length ≤ length + 1 ∧ length ≤ c.rest.length := by
  cases escaped with
  | feed here => exact ⟨Nat.zero_le _, Cursor.length_pos_of_look here⟩
  | carriage here => exact ⟨Nat.zero_le _, Cursor.length_pos_of_look here⟩
  | both here feed =>
    obtain ⟨d, second, -⟩ := Option.map_eq_some_iff.1 feed
    exact ⟨Nat.zero_le _, (List.getElem?_eq_some_iff.1 second).1⟩
  | letter here named =>
    rw [length_of_escapeOf named]
    exact ⟨by decide, Cursor.length_pos_of_look here⟩
  | @hexadecimal letter char count here counted all number =>
    have le := length_encode_le char
    have two := two_le_of_hexCount counted
    rw [List.length_map, List.length_take, List.length_drop] at all
    omega
  | @octal char digits written number =>
    have le := length_encode_le char
    have short : digits.length ≤ ((c.rest.take 3).map Char.ofUInt8).length :=
      written ▸ (List.takeWhile_sublist _).length_le
    rw [List.length_map, List.length_take] at short
    refine ⟨?_, by omega⟩
    -- A character that takes two bytes has a number of three digits at least.
    rcases Nat.lt_or_ge digits.length 3 with few | many
    · have small : char.toNat < 8 ^ 2 :=
        Nat.lt_of_lt_of_le (number?_lt number) (Nat.pow_le_pow_right (by decide) (by omega))
      rw [encode_of_ascii (Nat.lt_trans small (by decide)), List.length_singleton]
      exact Nat.le_add_left 1 _
    · omega
  | unknown => exact ⟨Nat.le_refl _, Nat.zero_le _⟩

/-- A part of a literal takes no fewer bytes than it stands for. -/
theorem length_part_le {more : List UInt8} {extra : Nat} (here : c.current = some b)
    (part : Part c b more extra) :
    more.length + (c.advanceBy (extra + 1)).rest.length ≤ c.rest.length := by
  have present : 0 < c.rest.length := Cursor.length_pos_of_current here
  have enough : more.length ≤ extra + 1 ∧ extra + 1 ≤ c.rest.length := by
    cases part with
    | single => exact ⟨Nat.le_refl _, present⟩
    | raw second => exact ⟨Nat.le_refl _, (List.getElem?_eq_some_iff.1 second).1⟩
    | escaped slash escaped =>
      obtain ⟨le, fits⟩ := length_escaped_le escaped
      rw [Cursor.advance, Cursor.length_advanceBy] at fits
      exact ⟨le, by omega⟩
  rw [Cursor.length_advanceBy]
  omega

/-- Behind the closing quotes less is left than the value of the literal leaves of the text. -/
theorem length_stringRest_lt {value : String} {kind : StringKind}
    (done : stringRest quotes form start c read = .ok (.string value kind, after)) :
    (utf8 value).length ≤ read.length + c.rest.length := by
  fun_induction stringRest quotes form start c read with
  | case1 => cases done
  | case2 => cases done
  | case3 c read b rest here length part =>
    unfold closeString at done
    split at done
    · rename_i value known
      cases done
      rw [utf8_of_ofUtf8? known, List.length_reverse]
      exact Nat.le_add_right _ _
    · cases done
  | case4 c read b rest here more extra part less ih =>
    have current : c.current = some b := by rw [Cursor.current, here]; rfl
    have passed := length_part_le current (part_of_stringPart part)
    have le := ih done
    rw [List.length_append, List.length_reverse] at le
    omega

/-- The value of a literal is shorter than what is left of the text, as there are quotes. -/
theorem length_readString_value {value : String} {kind : StringKind}
    (done : readString form c = .ok (.string value kind, after)) :
    (utf8 value).length < c.rest.length := by
  unfold readString at done
  split at done
  · cases done
  · rename_i mark here
    have present : 0 < c.rest.length := Cursor.length_pos_of_current here
    have le := length_stringRest_lt done
    rw [Cursor.length_advanceBy, List.length_nil, Nat.zero_add] at le
    split at le <;> omega

theorem holes_of_readNumber {kind : TokenKind} (done : readNumber c = .ok (kind, after)) :
    kind.holes = [] := by
  unfold readNumber at done
  obtain ⟨⟨stop, isFloat⟩, -, done⟩ := ok_of_bind done
  dsimp only at done
  split at done
  · rename_i number
    split at done <;> cases done
    unfold numberKind at number
    dsimp only at number
    split at number
    · obtain ⟨x, -, rfl⟩ := Option.map_eq_some_iff.1 number
      rfl
    · obtain ⟨n, -, rfl⟩ := Option.map_eq_some_iff.1 number
      rfl
  · cases done

end Literal

namespace Layout

open Cursor

variable {c after : Cursor} {s t : Layout} {size : Nat}

theorem length_hole_lt_of_readString {form : Literal.StringForm} {kind : TokenKind}
    (read : Literal.readString form c = .ok (kind, after)) :
    ∀ h ∈ kind.holes, (utf8 h.source).length < c.rest.length := by
  intro h inside
  cases kind with
  | string value kind =>
    exact Nat.lt_trans (length_hole_lt inside) (Literal.length_readString_value read)
  | _ => cases inside

/-- The holes of a token are shorter than what is left of the text before it. -/
theorem length_hole_lt_of_readToken {b : UInt8} {kind : TokenKind}
    (read : readToken c b = .ok (kind, after)) :
    ∀ h ∈ kind.holes, (utf8 h.source).length < c.rest.length := by
  unfold readToken at read
  split at read
  · exact length_hole_lt_of_readString read
  · split at read
    · rw [Literal.holes_of_readNumber read]
      exact List.forall_mem_nil _
    · split at read
      · unfold readWord at read
        dsimp only at read
        split at read
        · cases read
        · split at read
          · intro h inside
            exact Nat.lt_of_lt_of_le (length_hole_lt_of_readString read h inside)
              (length_skipWhile_le c Literal.isIdentByte)
          · cases read
            exact List.forall_mem_nil _
          · cases read
            exact List.forall_mem_nil _
      · unfold readOperator at read
        split at read <;> cases read
        exact List.forall_mem_nil _

/-- No hole of the tokens so far is as long as the text, of which no more than `size` is left. -/
structure Short (size : Nat) (s : Layout) : Prop where
  left : s.cursor.rest.length ≤ size
  holes : ∀ h ∈ holesIn s.tokens, (utf8 h.source).length < size

theorem Short.read (h : Short size s) {start : Pos} {kind : TokenKind} {d : Cursor}
    (left : d.rest.length ≤ size) (short : ∀ h ∈ kind.holes, (utf8 h.source).length < size) :
    Short size (s.read start kind d) :=
  ⟨left, by
    rw [Layout.read, emit, holesIn_cons, List.forall_mem_append]
    exact ⟨short, h.holes⟩⟩

theorem holesIn_replicate {t : Token TokenKind} (layout : t.kind.holes = []) (n : Nat) :
    holesIn (List.replicate n t) = [] := by
  induction n with
  | zero => rfl
  | succ n ih => rw [List.replicate_succ, holesIn_cons, layout, ih, List.append_nil]

theorem Short.step (h : Short size s) (one : Step s t) : Short size t := by
  have left : t.cursor.rest.length ≤ size :=
    Nat.le_trans (Nat.le_of_lt (length_step_lt (step_eq_some_iff.2 one))) h.left
  have blanks : s.cursor.skipBlanks.rest.length ≤ size :=
    Nat.le_trans (length_skipWhile_le s.cursor isBlank) h.left
  cases one with
  | blankLine | commentLine | comment | join | lineBreak => exact ⟨left, h.holes⟩
  | lineEnd =>
    refine ⟨left, ?_⟩
    split
    · rw [emit, holesIn_cons]
      exact h.holes
    · exact h.holes
  | token _ _ _ found =>
    exact h.read left fun q inside =>
      Nat.lt_of_lt_of_le (length_hole_lt_of_readToken found q inside) blanks
  | line _ _ _ indented found =>
    refine Short.read ⟨?_, ?_⟩ left fun q inside =>
      Nat.lt_of_lt_of_le (length_hole_lt_of_readToken found q inside) blanks
    · cases indented <;> exact blanks
    · cases indented with
      | deeper => exact h.holes
      | back =>
        rw [holesIn_append, holesIn_replicate rfl]
        exact h.holes

theorem Short.run {tokens : List (Token TokenKind)} (h : Short size s)
    (done : s.run = .ok tokens) : ∀ h ∈ holesIn tokens, (utf8 h.source).length < size := by
  fun_induction Layout.run s with
  | case1 => cases done
  | case2 s =>
    cases done
    rw [finish_eq, holesIn_append, List.forall_mem_append]
    constructor
    · intro q inside
      refine h.holes q ?_
      rw [holesIn, List.mem_flatMap] at inside ⊢
      obtain ⟨t, member, there⟩ := inside
      exact ⟨t, List.mem_reverse.1 member, there⟩
    · intro q inside
      obtain ⟨t, member, there⟩ := List.mem_flatMap.1 inside
      have layout := (of_mem_ending member).1
      cases kind : t.kind <;> rw [kind] at layout there <;>
        first | (cases layout; done) | cases there
  | case3 s next more less ih => exact ih (h.step (step_eq_some_iff.1 more)) done

end Layout

/-- The holes of a text's tokens are shorter than the text. -/
theorem length_source_lt {bytes : List UInt8} {tokens : List (Token TokenKind)}
    (done : Script.tokens bytes = .ok tokens) :
    ∀ h ∈ holesIn tokens, (utf8 h.source).length < bytes.length :=
  Layout.Short.run ⟨Nat.le_refl _, List.forall_mem_nil _⟩ done

end Script

end ScoreScript
