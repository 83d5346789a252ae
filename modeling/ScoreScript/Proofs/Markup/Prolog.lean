import ScoreScript.Proofs.Markup.Doctype
import ScoreScript.Proofs.Markup.Places

/-!
What may stand before the root element: white space, comments, instructions and a document type.
The reader passes all of that, and then reads the document that follows as it would on its own. For
a document type it only counts brackets, wherever they stand, so this is true of those whose quoted
texts do not mislead the count, and not of all. Main statement: `readText_prolog`.
-/

namespace ScoreScript.Markup

open Element Cursor

/-! ### Prologs -/

/-- White space, comments and instructions. -/
inductive IsMisc : List UInt8 → Prop where
  | nil : IsMisc []
  | blank {b : UInt8} {rest : List UInt8} (space : isWhitespace b = true) (later : IsMisc rest) :
    IsMisc (b :: rest)
  | comment {between bytes rest : List UInt8} (region : IsRegion "<!--" "-->" between bytes)
    (later : IsMisc rest) : IsMisc (bytes ++ rest)
  | instruction {between bytes rest : List UInt8} (region : IsRegion "<?" "?>" between bytes)
    (later : IsMisc rest) : IsMisc (bytes ++ rest)

/-- What stands before a root element: white space, comments and instructions, and among them at
most one document type. -/
inductive IsProlog (doctype : List UInt8 → Prop) : List UInt8 → Prop where
  | untyped {bytes : List UInt8} (misc : IsMisc bytes) : IsProlog doctype bytes
  | typed {before type after : List UInt8} (misc : IsMisc before) (declared : doctype type)
    (misc' : IsMisc after) : IsProlog doctype (before ++ (type ++ after))

theorem IsProlog.mono {doctype doctype' : List UInt8 → Prop}
    (more : ∀ type, doctype type → doctype' type) {bytes : List UInt8}
    (isProlog : IsProlog doctype bytes) : IsProlog doctype' bytes := by
  cases isProlog with
  | untyped misc => exact .untyped misc
  | typed misc declared misc' => exact .typed misc (more _ declared) misc'

/-! ### What is passed -/

variable {rest : List UInt8} {p : Pos}

/-- A word does not overlap with itself if its last byte comes once in it. What does not contain the
word may then stand before it, and the word still begins nowhere earlier. -/
theorem first_of_not_infix {init between : List UInt8} {last : UInt8} (rest : List UInt8)
    (apart : last ∉ init) (fresh : ¬init ++ [last] <:+: between) :
    ∀ n < between.length, ¬init ++ [last] <+: (between ++ (init ++ [last] ++ rest)).drop n := by
  rintro n less ⟨after, split⟩
  rw [List.drop_append_of_le_length less.le] at split
  have behind : between.drop n ≠ [] := fun none => by
    rw [List.drop_eq_nil_iff] at none
    omega
  have inner {word : List UInt8} (part : word <+: between.drop n) : word <:+: between :=
    part.isInfix.trans (List.drop_suffix n between).isInfix
  rcases List.append_eq_append_iff.1 split with ⟨more, within, -⟩ | ⟨more, beyond, onward⟩
  · exact fresh (inner ⟨more, within.symm⟩)
  · rcases List.eq_nil_or_concat more with rfl | ⟨front, b, rfl⟩
    · rw [List.append_nil] at beyond
      exact fresh (inner (beyond ▸ List.prefix_rfl))
    · rw [List.concat_eq_append, ← List.append_assoc] at beyond
      obtain ⟨rfl, same⟩ := List.append_inj' beyond rfl
      obtain rfl : last = b := List.singleton_inj.1 same
      -- the last byte would come earlier in the word as well
      have earlier : front.length < (between.drop n ++ front).length := by
        have pos := List.length_pos_iff.2 behind
        rw [List.length_append]
        omega
      have byte : (between.drop n ++ front ++ ([last] ++ rest))[front.length]? =
          (front ++ last :: after)[front.length]? := by
        rw [← List.append_assoc, onward, List.concat_eq_append, List.append_assoc,
          List.singleton_append]
      rw [List.getElem?_append_left earlier, List.getElem?_append_right (Nat.le_refl _),
        Nat.sub_self, List.getElem?_cons_zero] at byte
      exact apart (List.mem_of_getElem? byte)

/-- What stands between two marks is passed with them. -/
theorem skipRegion_region {opening closing : String} {between bytes : List UInt8} {extra : Nat}
    (region : IsRegion opening closing between bytes)
    (length : (utf8 opening).length = extra + 1)
    (ascii : utf8 closing = closing.toList.map Char.toUInt8) {init : List UInt8} {last : UInt8}
    (split : utf8 closing = init ++ [last]) (apart : last ∉ init) :
    skipRegion ⟨bytes ++ rest, p⟩ extra closing = .ok ⟨rest, p.after bytes⟩ := by
  obtain ⟨rfl, fresh⟩ := region
  have some_word : utf8 closing ≠ [] := by
    rw [split]
    exact List.append_ne_nil_of_right_ne_nil _ (List.cons_ne_nil _ _)
  have first : distance? (closing.toList.map Char.toUInt8) 0
      (between ++ (utf8 closing ++ rest)) = some between.length := by
    rw [← ascii, distance?_eq_some_iff some_word]
    refine ⟨between.length, (Nat.zero_add _).symm, ?_, ?_⟩
    · rw [List.drop_left]
      exact List.prefix_append _ _
    · rw [split] at fresh ⊢
      exact first_of_not_infix rest apart fresh
  have bytes : (utf8 closing).length = closing.length := by
    rw [ascii, List.length_map, String.length_toList]
  rw [List.append_assoc, List.append_assoc, skipRegion, advanceBy_append _ length, skipPast,
    Cursor.skipPast, first]
  have passed {q : Pos} : (⟨between ++ (utf8 closing ++ rest), q⟩ : Cursor).advanceBy
      (between.length + closing.length) = ⟨rest, q.after (between ++ utf8 closing)⟩ := by
    rw [← List.append_assoc]
    exact advanceBy_append _ (by rw [List.length_append, bytes])
  dsimp only
  rw [passed, ← Pos.after_append]

/-- After a comment or an instruction the reader goes on as it would have begun. -/
theorem skipMisc_region {extra : Nat} {word : String} {c after : Cursor}
    (noBlank : c.skipWhitespace = c) (mark : miscAt c = some (extra, word))
    (passed : skipRegion c extra word = .ok after) : skipMisc c = skipMisc after := by
  rw [skipMisc_step, noBlank, mark]
  dsimp only
  rw [passed]
  rfl

theorem skipMisc_blank {b : UInt8} (space : isWhitespace b = true) :
    skipMisc ⟨b :: rest, p⟩ = skipMisc ⟨rest, p.after [b]⟩ := by
  have same : (⟨b :: rest, p⟩ : Cursor).skipWhitespace =
      (⟨rest, p.after [b]⟩ : Cursor).skipWhitespace := by
    rw [skipWhitespace, skipWhile, List.takeWhile_cons, if_pos space, List.length_cons,
      Nat.add_comm, ← advanceBy_advanceBy, ← advance, advance_cons]
    rfl
  rw [skipMisc_step, skipMisc_step, same]

theorem skipMisc_comment {between bytes : List UInt8}
    (region : IsRegion "<!--" "-->" between bytes) :
    skipMisc ⟨bytes ++ rest, p⟩ = skipMisc ⟨rest, p.after bytes⟩ := by
  have split : utf8 "-->" = [0x2D, 0x2D] ++ [0x3E] := rfl
  have opening : utf8 "<!--" = [0x3C, 0x21, 0x2D, 0x2D] := rfl
  refine skipMisc_region ?_ ?_ (skipRegion_region region rfl rfl split (by decide))
  · rw [region.1, opening]
    exact skipWhile_stop (stops_cons (by decide))
  · rw [region.1, opening]
    rfl

theorem skipMisc_instruction {between bytes : List UInt8}
    (region : IsRegion "<?" "?>" between bytes) :
    skipMisc ⟨bytes ++ rest, p⟩ = skipMisc ⟨rest, p.after bytes⟩ := by
  have split : utf8 "?>" = [0x3F] ++ [0x3E] := rfl
  have opening : utf8 "<?" = [0x3C, 0x3F] := rfl
  refine skipMisc_region ?_ ?_ (skipRegion_region region rfl rfl split (by decide))
  · rw [region.1, opening]
    exact skipWhile_stop (stops_cons (by decide))
  · rw [region.1, opening]
    rfl

theorem skipMisc_misc {misc : List UInt8} (isMisc : IsMisc misc) :
    skipMisc ⟨misc ++ rest, p⟩ = skipMisc ⟨rest, p.after misc⟩ := by
  induction isMisc generalizing p with
  | nil => rfl
  | blank space _ ih =>
    rw [List.cons_append, skipMisc_blank space, ih, ← Pos.after_append, List.singleton_append]
  | comment region _ ih =>
    rw [List.append_assoc, skipMisc_comment region, ih, Pos.after_append]
  | instruction region _ ih =>
    rw [List.append_assoc, skipMisc_instruction region, ih, Pos.after_append]

/-! ### Documents -/

/-- A text that begins with the root element. -/
def StartsRoot (bytes : List UInt8) : Prop :=
  ∃ b rest, bytes = 0x3C :: b :: rest ∧ isNameStart b = true

theorem skipProlog_doctype {c d : Cursor} (misc : skipMisc c = .ok d)
    (mark : d.startsWith "<!DOCTYPE" = true) : skipProlog c = skipDoctype d >>= skipMisc := by
  rw [skipProlog, misc]
  simp only [bind, Except.bind, mark, if_true]

/-- Nothing is passed before a document type. -/
theorem skipMisc_doctype (more : List UInt8) :
    skipMisc ⟨utf8 "<!DOCTYPE" ++ more, p⟩ = .ok ⟨utf8 "<!DOCTYPE" ++ more, p⟩ := by
  have noBlank : (⟨utf8 "<!DOCTYPE" ++ more, p⟩ : Cursor).skipWhitespace =
      ⟨utf8 "<!DOCTYPE" ++ more, p⟩ := skipWhile_stop (stops_cons (by decide))
  have noMisc : miscAt (⟨utf8 "<!DOCTYPE" ++ more, p⟩ : Cursor).skipWhitespace = none := by
    rw [noBlank]
    rfl
  rw [skipMisc_none noMisc, noBlank]

theorem startsWith_doctype (more : List UInt8) :
    (⟨utf8 "<!DOCTYPE" ++ more, p⟩ : Cursor).startsWith "<!DOCTYPE" = true :=
  List.isPrefixOf_iff_prefix.2 (List.prefix_append _ _)

/-- A prolog is passed. -/
theorem skipProlog_prolog {prolog bytes : List UInt8}
    (isProlog : IsProlog (fun type => IsDoctype type ∧ CountedFrom 0 type) prolog)
    (root : StartsRoot bytes) : skipProlog ⟨prolog ++ bytes, p⟩ = .ok ⟨bytes, p.after prolog⟩ := by
  obtain ⟨b, rest, rfl, start⟩ := root
  cases isProlog with
  | untyped misc =>
    have noDoctype : (⟨0x3C :: b :: rest, p.after prolog⟩ : Cursor).startsWith "<!DOCTYPE" =
        false := startsWith_element start _ rfl (by decide)
    rw [skipProlog, skipMisc_misc misc, skipMisc_element rest start]
    simp only [bind, Except.bind, noDoctype]
    rfl
  | @typed before type after misc declared misc' =>
    have passed := skipDoctype_iff.2 declared.2 (after ++ 0x3C :: b :: rest) (p.after before)
    obtain ⟨more, rfl⟩ := declared.1.exists_append
    rw [List.append_assoc] at passed
    have stays := (skipMisc_misc misc (p := p)).trans
      (skipMisc_doctype (more ++ (after ++ 0x3C :: b :: rest)))
    simp only [List.append_assoc]
    rw [skipProlog_doctype stays (startsWith_doctype _), passed]
    change skipMisc _ = _
    rw [skipMisc_misc misc', skipMisc_element rest start]
    simp only [Pos.after_append]

theorem read_prolog {prolog bytes : List UInt8} {e : Element}
    (isProlog : IsProlog (fun type => IsDoctype type ∧ CountedFrom 0 type) prolog)
    (root : StartsRoot bytes) (accepted : read bytes = .ok e) :
    read (prolog ++ bytes) = .ok e := by
  have passed : skipProlog (.ofBytes bytes) = .ok ⟨bytes, .start⟩ := by
    obtain ⟨b, rest, rfl, start⟩ := root
    exact skipProlog_element rest start
  rw [read, passed] at accepted
  obtain ⟨_, ⟨⟩, accepted⟩ := ok_of_bind accepted
  obtain ⟨⟨found, rest, p⟩, first, accepted⟩ := ok_of_bind accepted
  obtain ⟨⟨left, p'⟩, second, accepted⟩ := ok_of_bind accepted
  obtain ⟨⟨_, _, q⟩, first', rfl, rfl⟩ :=
    (readElement_places (q := Pos.start.after prolog)).of_ok first
  obtain ⟨⟨_, q'⟩, second', ⟨⟩⟩ := (skipMisc_places (q := q)).of_ok second
  rw [read, Cursor.ofBytes, skipProlog_prolog isProlog root]
  change (readElement _ >>= _) = _
  rw [first']
  change (skipMisc _ >>= _) = _
  rw [second']
  have last : (⟨left, p'⟩ : Cursor).isEnd = true := by
    by_contra more
    rw [if_neg more] at accepted
    cases accepted
  rw [if_pos last] at accepted
  exact (if_pos last).trans accepted

/-- A document is read as it would be without its prolog, if brackets are counted through the
document type in it. They are where no bracket is quoted and, outside of the brackets, no sign that
ends a document type; and a well-formed document type is passed as a whole just in case they are. -/
theorem readText_prolog (prolog text : String) (e : Element) (root : StartsRoot (utf8 text))
    (accepted : readText text = .ok e) :
    (IsProlog (fun type => IsDoctype type ∧ CountedFrom 0 type) (utf8 prolog) →
      readText (prolog ++ text) = .ok e) ∧
    (IsProlog (DoctypeWith NoMark NoBracket) (utf8 prolog) →
      IsProlog (fun type => IsDoctype type ∧ CountedFrom 0 type) (utf8 prolog)) ∧
    ∀ type, IsDoctype type →
      (CountedFrom 0 type ↔
        ∀ rest p, skipDoctype ⟨type ++ rest, p⟩ = .ok ⟨rest, p.after type⟩) := by
  refine ⟨fun isProlog => ?_, fun plain => ?_, fun type _ => skipDoctype_iff.symm⟩
  · rw [readText, utf8_append]
    exact read_prolog isProlog root accepted
  · exact plain.mono fun type plain => ⟨plain.isDoctype, counted_of_plain plain⟩

theorem readText_emptyTag : readText "<a />\n" = .ok { tag := "a" } := by
  have named : ({ tag := "a" } : Element).Everywhere WellNamed :=
    everywhere_iff.2 ⟨⟨by decide, nofun, by decide⟩, nofun⟩
  have written : ({ tag := "a" } : Element).toXml = "<a />\n" := by decide
  have read := readText_toXml named (by decide)
  rw [written] at read
  exact read

theorem startsRoot_emptyTag : StartsRoot (utf8 "<a />\n") :=
  ⟨0x61, utf8 " />\n", rfl, by decide⟩

/-- An instruction, and a document type that declares an entity. -/
def entityProlog : String :=
  "<?x?><!DOCTYPE a [<!ENTITY b \">\">]>\n"

theorem readText_prolog_entity :
    StartsRoot (utf8 "<a />\n") ∧ readText "<a />\n" = .ok { tag := "a" } ∧
    IsProlog (DoctypeWith NoMark NoBracket) (utf8 entityProlog) ∧
    readText (entityProlog ++ "<a />\n") = .ok { tag := "a" } := by
  have split : utf8 entityProlog = (utf8 "<?" ++ (utf8 "x" ++ utf8 "?>")) ++ [] ++
      ((utf8 "<!DOCTYPE" ++ ([0x20] ++ (utf8 "a" ++ ([] ++ ([0x20] ++
        0x5B :: ((utf8 "<!ENTITY b " ++ ((0x22 :: (utf8 ">" ++ [0x22])) ++ (utf8 ">" ++ []))) ++
          0x5D :: ([] ++ [0x3E]))))))) ++ (0x0A :: [])) := by decide
  have space : IsSpace [0x20] := ⟨List.forall_mem_singleton.2 rfl, nofun⟩
  have literal : IsLiteral NoBracket (0x22 :: (utf8 ">" ++ [0x22])) :=
    ⟨0x22, utf8 ">", .inl rfl, by decide, forall_mem_of_all (by decide), rfl⟩
  have plain : IsProlog (DoctypeWith NoMark NoBracket) (utf8 entityProlog) := by
    rw [split]
    refine .typed (.instruction ⟨rfl, by decide⟩ .nil) ?_ (.blank (by decide) .nil)
    exact .subset space (by decide) .none space.1
      (.signs (forall_mem_of_all (by decide))
        (.literal literal (.signs (forall_mem_of_all (by decide)) .nil))) nofun
  obtain ⟨transparent, counted, -⟩ :=
    readText_prolog entityProlog "<a />\n" _ startsRoot_emptyTag readText_emptyTag
  exact ⟨startsRoot_emptyTag, readText_emptyTag, plain, transparent (counted plain)⟩

/-- A document type with a sign that ends document types in its literal. -/
def quotedSign : String :=
  "<!DOCTYPE a SYSTEM \"x>y\">"

/-- The reader takes the sign in the literal for the end, and does not read what follows. -/
theorem readText_quotedSign :
    IsProlog IsDoctype (utf8 quotedSign) ∧ StartsRoot (utf8 "<a />\n") ∧
    readText "<a />\n" = .ok { tag := "a" } ∧
    readText (quotedSign ++ "<a />\n") =
      .error (.point (.grammar (.markup (.missing '<'))) ⟨22, 1, 23⟩) := by
  refine ⟨?_, startsRoot_emptyTag, readText_emptyTag, ?_⟩
  · have split : utf8 quotedSign = [] ++ ((utf8 "<!DOCTYPE" ++ ([0x20] ++ (utf8 "a" ++
        (([0x20] ++ (utf8 "SYSTEM" ++ ([0x20] ++ (0x22 :: ([0x78, 0x3E, 0x79] ++ [0x22]))))) ++
          ([] ++ [0x3E]))))) ++ []) := by decide
    have space : IsSpace [0x20] := ⟨List.forall_mem_singleton.2 rfl, nofun⟩
    have literal : IsLiteral (fun _ => True) (0x22 :: ([0x78, 0x3E, 0x79] ++ [0x22])) :=
      ⟨0x22, [0x78, 0x3E, 0x79], .inl rfl, by decide, fun _ _ => trivial, rfl⟩
    rw [split]
    exact .typed .nil (.plain space (by decide) (.system space space literal) nofun) .nil
  · -- the count ends at the sign in the literal
    have bytes : utf8 (quotedSign ++ "<a />\n") =
        utf8 "<!DOCTYPE a SYSTEM \"x>" ++ utf8 "y\"><a />\n" := by decide
    have early : CountedFrom 0 (utf8 "<!DOCTYPE a SYSTEM \"x>") :=
      (doctypeLength?_eq_some_iff 0).1 (by decide : doctypeLength? 0 0 _ = some 22)
    have stays := skipMisc_doctype (p := .start) (utf8 " a SYSTEM \"x>" ++ utf8 "y\"><a />\n")
    have after {q : Pos} : skipMisc ⟨utf8 "y\"><a />\n", q⟩ = .ok ⟨utf8 "y\"><a />\n", q⟩ :=
      skipMisc_none rfl
    have place : Pos.start.after (utf8 "<!DOCTYPE a SYSTEM \"x>") = ⟨22, 1, 23⟩ := by decide
    have passed : skipProlog (.ofBytes (utf8 "<!DOCTYPE a SYSTEM \"x>" ++ utf8 "y\"><a />\n")) =
        .ok ⟨utf8 "y\"><a />\n", ⟨22, 1, 23⟩⟩ := by
      refine (skipProlog_doctype stays (startsWith_doctype _)).trans ?_
      refine (congrArg (· >>= skipMisc) (skipDoctype_iff.2 early _ _)).trans ?_
      rw [place]
      exact after
    rw [readText, bytes, read, passed]
    rfl

end ScoreScript.Markup
