import ScoreScript.Proofs.Holes.Alone
import ScoreScript.Proofs.Parallel.Limits
import ScoreScript.Proofs.Sandbox.Exactness
import ScoreScript.Proofs.Script.Ending

/-!
The holes of a script, and the calls in them. What is read of a hole is the first line of its
source. The value that it is read to is part of the tree, unless it belongs to a parameter whose
place another one takes, and the holes of that line are read in turn. A source of one line is
thereby read whole: whatever it calls as a script of its own, the script around it calls
(`Module.ofText_holes`).
-/

namespace ScoreScript.Script

/-- The tokens of the first line. -/
def firstLine (tokens : List (Token TokenKind)) : List (Token TokenKind) :=
  tokens.takeWhile fun t => !t.kind.endsLine

/-- The tokens from the end of the first line on. -/
def otherLines (tokens : List (Token TokenKind)) : List (Token TokenKind) :=
  tokens.dropWhile fun t => !t.kind.endsLine

/-- The value is read of the first line of the tokens and leaves the others. -/
def IsFirstLine (tokens : List (Token TokenKind)) (value : Expr) : Prop :=
  ∃ levels n after,
    Grammar.expressions (Grammar.knot (Grammar.readHole levels) tokens.length) n
      (.ofTokens tokens) = .ok (value, after) ∧ after.rest = otherLines tokens

/-- The hole is a formatted value in the tree, read of the first line of its source. -/
def Module.Holds (m : Module) (h : Hole) (source : List (Token TokenKind)) (value : Expr) : Prop :=
  Script.tokens (utf8 (trim h.source)) = .ok source ∧ IsFirstLine source value ∧
    ∃ s ∈ m.body, ∃ spec span, Within (.stmt s) (.expr (.formatted value h.conversion spec span))

namespace Grammar

open Rule

/-- A hole in a script that is not lost, or in the first line of the source of one. -/
inductive IsHole (k : Knot) (tokens : List (Token TokenKind)) : Hole → Prop
  | outer {h : Hole} (written : h ∈ holesIn tokens) (kept : ¬Lost k tokens h) : IsHole k tokens h
  | inner {h h' : Hole} {source : List (Token TokenKind)} (around : IsHole k tokens h)
    (lexed : Script.tokens (utf8 (trim h.source)) = .ok source)
    (written : h' ∈ holesIn (firstLine source)) : IsHole k tokens h'

/-- Only where there are functions can a hole be lost. -/
theorem not_lost_of_no_function {k : Knot} {tokens : List (Token TokenKind)} {h : Hole}
    (none : ∀ t ∈ tokens, Mark.ofKind? t.kind ≠ some (.word .defKw)) : ¬Lost k tokens h := by
  rintro ⟨head, list, n, s, entries, t, inside, ⟨id, kinds⟩, -⟩
  cases head with
  | nil => cases kinds
  | cons first others =>
    rw [List.map_cons, List.cons.injEq] at kinds
    refine none first (inside.subset (List.mem_append_left _ List.mem_cons_self)) ?_
    rw [kinds.1]
    rfl

/-! ### The source of a hole -/

variable {levels room : Nat} {text : String} {value : Expr} {tokens : List (Token TokenKind)}

theorem readHole_ok (read : readHole levels room text = .ok value) :
    ∃ source levels' after, Script.tokens (utf8 (trim text)) = .ok source ∧
      expressions (knot (readHole levels') source.length) ⟨room, 0⟩ (.ofTokens source) =
        .ok (value, after) ∧ after.current.kind.endsLine = true := by
  cases levels with
  | zero => cases read
  | succ levels =>
    rw [readHole] at read
    obtain ⟨source, lexed, read⟩ := ok_of_bind read
    obtain ⟨⟨value', t⟩, done, ⟨⟩⟩ := ok_of_bind read
    let k := knot (readHole levels) source.length
    obtain ⟨⟨value', after⟩, first, ended⟩ :=
      ok_of_bind (show expressions k ⟨room, 0⟩ (.ofTokens source) >>= _ = .ok (value, t) from done)
    simp only [look_bind] at ended
    cases kind : after.current.kind <;> rw [kind] at ended <;> cases ended
    iterate 2 exact ⟨source, levels, _, lexed, first, by rw [kind]; rfl⟩

/-- Expressions at the end of which the line ends are read of the first line. -/
theorem expressions_firstLine {n : Nesting} {after : Stream}
    (read : expressions (knot (readHole levels) tokens.length) n (.ofTokens tokens) =
      .ok (value, after)) (ended : after.current.kind.endsLine = true) :
    after.rest = otherLines tokens ∧
      ∀ h ∈ holesIn (firstLine tokens), (Node.expr value).Fills (readHole levels) h := by
  obtain ⟨used, split, usable, paid⟩ :=
    expressions_covers (knot_covers none (readHole levels) tokens.length) _ n value after read
  have inLine : ∀ t ∈ used, (!t.kind.endsLine) = true := by
    intro t inside
    obtain ⟨more, inLine⟩ := usable t inside
    have inLine := inLine rfl
    cases kind : t.kind <;> rw [kind] at more inLine <;>
      first | rfl | (cases more; done) | cases inLine
  have stop : after.rest.takeWhile (fun t => !t.kind.endsLine) = [] ∧
      after.rest.dropWhile (fun t => !t.kind.endsLine) = after.rest := by
    cases rest : after.rest with
    | nil => exact ⟨rfl, rfl⟩
    | cons first others =>
      have first : first.kind.endsLine = true := by
        rw [Stream.current, rest] at ended
        exact ended
      rw [List.takeWhile_cons, List.dropWhile_cons, first]
      exact ⟨rfl, rfl⟩
  change tokens = used ++ after.rest at split
  rw [otherLines, firstLine, split, List.dropWhile_append_of_pos inLine,
    List.takeWhile_append_of_pos inLine, stop.1, stop.2, List.append_nil]
  refine ⟨rfl, fun h inside => ?_⟩
  obtain ⟨q, member, fills⟩ | ⟨k, ⟨⟩, -⟩ := paid h (.inl inside)
  exact List.mem_singleton.1 member ▸ fills

/-- The value of a source of one line is what that line is as a script. -/
theorem ofTokens_of_firstLine {after : Stream}
    (read : expressions (knot (readHole levels) tokens.length) ⟨room, 0⟩ (.ofTokens tokens) =
      .ok (value, after)) (blank : after.IsBlank) :
    ∃ span, Module.ofTokens 0 levels tokens = .ok ⟨[.expr value span]⟩ := by
  let k := knot (readHole levels) tokens.length
  have restrained : Restrained (expressions k) (expressions k) := restrained_of_parallel
    (expressions_parallel (knot_restrained (readHole_restrained levels) tokens.length))
  have free : expressions k ⟨0, 0⟩ (.ofTokens tokens) = .ok (value, after) :=
    (restrained ⟨room, 0⟩ ⟨0, 0⟩ _ ⟨rfl, .inl rfl⟩).ok read
  obtain ⟨_, t, done, span, rfl⟩ := script_alone tokens.length
    (knot_covers (some k) (readHole levels) tokens.length) (knot_advances tokens.length)
    (expressions_begins _ _ _ free) free blank
  refine ⟨span, ?_⟩
  change script k tokens.length ⟨0, 0⟩ (.ofTokens tokens) >>= _ = _
  rw [done]
  rfl

/-! ### Whole scripts -/

theorem rest_of_endsOnce {used others : List (Token TokenKind)} {first : Token TokenKind}
    (ends : EndsOnce (used ++ first :: others)) (ended : first.kind.isEof = true) : others = [] := by
  obtain ⟨before, last, split, -, all⟩ := ends
  rcases List.eq_nil_or_concat others with none | ⟨more, x, rfl⟩
  · exact none
  · rw [List.concat_eq_append, ← List.cons_append, ← List.append_assoc] at split
    obtain ⟨rfl, -⟩ := List.append_inj' split rfl
    have other := all first (List.mem_append_right _ List.mem_cons_self)
    rw [ended] at other
    cases other

theorem holesIn_of_ended {used : List (Token TokenKind)} {t : Stream}
    (ends : EndsOnce (used ++ t.rest)) (ended : t.current.kind.isEof = true) :
    holesIn t.rest = [] := by
  cases rest : t.rest with
  | nil => rfl
  | cons first others =>
    rw [Stream.current, rest] at ended
    rw [rest] at ends
    rw [rest_of_endsOnce ends ended, holesIn_cons, holesIn_nil, List.append_nil]
    cases kind : first.kind <;> rw [List.headD_cons, kind] at ended <;> first | rfl | cases ended

theorem script_fills {depth : Nat} {m : Module} {h : Hole}
    (parsed : Module.ofTokens depth levels tokens = .ok m) (ends : EndsOnce tokens)
    (written : h ∈ holesIn tokens)
    (kept : ¬Lost (knot (readHole levels) tokens.length) tokens h) :
    ∃ s ∈ m.body, (Node.stmt s).Fills (readHole levels) h := by
  let k := knot (readHole levels) tokens.length
  obtain ⟨⟨m, t⟩, done, ⟨⟩⟩ := ok_of_bind
    (show script k tokens.length ⟨depth, 0⟩ (.ofTokens tokens) >>= _ = .ok m from parsed)
  have covers := knot_covers (some k) (readHole levels) tokens.length
  obtain ⟨used, split, -, paid⟩ := script_covers covers _ _ m t done
  have ended : t.current.kind.isEof = true :=
    (script_ends covers (knot_advances tokens.length) m t done).2
  change tokens = used ++ t.rest at split
  have inUsed : h ∈ holesIn used := by
    rw [split, holesIn_append, holesIn_of_ended (split ▸ ends) ended, List.append_nil] at written
    exact written
  rcases paid h (.inl inUsed) with ⟨q, member, fills⟩ | ⟨k', same, lost⟩
  · obtain ⟨s, inBody, rfl⟩ := List.mem_map.1 member
    exact ⟨s, inBody, fills⟩
  · cases same
    have lost := lost.mono [] t.rest
    rw [List.nil_append, ← split] at lost
    exact absurd lost kept

/-- What a source is read to has the holes of its first line. -/
theorem fills_inner {s : Stmt} {h h' : Hole} {source : List (Token TokenKind)}
    (fills : (Node.stmt s).Fills (readHole levels) h)
    (lexed : Script.tokens (utf8 (trim h.source)) = .ok source)
    (written : h' ∈ holesIn (firstLine source)) :
    ∃ levels, (Node.stmt s).Fills (readHole levels) h' := by
  obtain ⟨room, value, spec, span, read, within⟩ := fills
  obtain ⟨source', levels', after, lexed', first, ended⟩ := readHole_ok read
  cases lexed.symm.trans lexed'
  obtain ⟨room', value', spec', span', read', within'⟩ :=
    (expressions_firstLine first ended).2 h' written
  exact ⟨levels', room', value', spec', span', read',
    within.trans (.part List.mem_cons_self within')⟩

theorem IsHole.fills {depth : Nat} {m : Module} {h : Hole}
    (hole : IsHole (knot (readHole levels) tokens.length) tokens h)
    (parsed : Module.ofTokens depth levels tokens = .ok m) (ends : EndsOnce tokens) :
    ∃ levels, ∃ s ∈ m.body, (Node.stmt s).Fills (readHole levels) h := by
  induction hole with
  | outer written kept => exact ⟨levels, script_fills parsed ends written kept⟩
  | inner around lexed written ih =>
    obtain ⟨levels', s, inBody, fills⟩ := ih
    obtain ⟨levels'', fills'⟩ := fills_inner fills lexed written
    exact ⟨levels'', s, inBody, fills'⟩

/-- A hole that is filled is held by the tree, and a source of one line is a script by itself. -/
theorem holds_of_fills {m : Module} {s : Stmt} {h : Hole} (inBody : s ∈ m.body)
    (fills : (Node.stmt s).Fills (readHole levels) h) :
    ∃ source value, m.Holds h source value ∧
      ((∀ t ∈ otherLines source, t.kind.endsLine = true) →
        ∃ levels span, Module.ofTokens 0 levels source = .ok ⟨[.expr value span]⟩) := by
  obtain ⟨room, value, spec, span, read, within⟩ := fills
  obtain ⟨source, levels', after, lexed, first, ended⟩ := readHole_ok read
  have left := (expressions_firstLine first ended).1
  refine ⟨source, value, ⟨lexed, ⟨levels', _, after, first, left⟩, s, inBody, spec, span, within⟩, ?_⟩
  intro blank
  rw [← left] at blank
  exact ⟨levels', ofTokens_of_firstLine first blank⟩

end Grammar

/-- A script that has a value somewhere shows whatever the value alone calls. -/
theorem Module.shows_of_within {m : Module} {s : Stmt} {e : Expr} {span : Span} {name : String}
    (inBody : s ∈ m.body) (within : Within (.stmt s) (.expr e))
    (called : Module.Shows ⟨[.expr e span]⟩ (.call name)) : m.Shows (.call name) := by
  rcases called with ⟨⟨⟩⟩ | ⟨_, inBody', n, below, found⟩
  obtain rfl := List.mem_singleton.1 inBody'
  rcases within_iff.1 below with rfl | ⟨q, direct, below⟩
  · obtain ⟨⟨⟩⟩ := List.mem_singleton.1 found
  · obtain rfl := List.mem_singleton.1 direct
    exact .inr ⟨s, inBody, n, within.trans below, found⟩

theorem Module.ok_of_ofText {limits : Limits} {text : String} {m : Module}
    (parsed : ofText limits text = .ok m) :
    ∃ tokens, Script.tokens (utf8 text) = .ok tokens ∧
      ofTokens limits.maxDepth (utf8 text).length tokens = .ok m := by
  obtain ⟨⟨⟩, -, parsed⟩ := ok_of_bind parsed
  obtain ⟨tokens, lexed, parsed⟩ := ok_of_bind parsed
  exact ⟨tokens, lexed, parsed⟩

/-- For every hole of a script, those in specs and in other holes included, the tree has what the
first line of the hole's source is read to. If there is no more than that line, this is the whole
source, and what the source calls as a script of its own, the script around it calls. -/
theorem Module.ofText_holes {limits : Limits} {text : String} {m : Module}
    (parsed : ofText limits text = .ok m) :
    ∃ tokens, Script.tokens (utf8 text) = .ok tokens ∧
      ∀ h, Grammar.IsHole (Grammar.knot (Grammar.readHole (utf8 text).length) tokens.length)
          tokens h →
        ∃ source value, m.Holds h source value ∧
          ((∀ t ∈ otherLines source, t.kind.endsLine = true) →
            (∃ levels span, ofTokens 0 levels source = .ok ⟨[.expr value span]⟩) ∧
            ∀ limits' own, ofText limits' (trim h.source) = .ok own →
              (∀ name, own.Shows (.call name) → m.Shows (.call name)) ∧
              ∀ name ∈ own.verdict.calls, name ∈ m.verdict.calls) := by
  obtain ⟨tokens, lexed, parsed⟩ := ok_of_ofText parsed
  refine ⟨tokens, lexed, fun h hole => ?_⟩
  obtain ⟨levels, s, inBody, fills⟩ := hole.fills parsed (tokens_endsOnce lexed)
  obtain ⟨source, value, holds, alone⟩ := Grammar.holds_of_fills inBody fills
  refine ⟨source, value, holds, fun blank => ⟨alone blank, fun limits' own ownParsed => ?_⟩⟩
  obtain ⟨lexed, -, s, inBody, spec, span, within⟩ := holds
  obtain ⟨levels, span', alone⟩ := alone blank
  obtain ⟨source', lexed', ownParsed⟩ := ok_of_ofText ownParsed
  cases lexed.symm.trans lexed'
  obtain rfl := ofTokens_agree _ _ _ _ source _ _ ownParsed alone
  have shows (name : String) : Module.Shows ⟨[.expr value span']⟩ (.call name) →
      m.Shows (.call name) :=
    shows_of_within inBody (within.trans (.part List.mem_cons_self (.self _)))
  refine ⟨shows, fun name listed => ?_⟩
  rw [mem_verdict_calls] at listed ⊢
  exact listed.imp_left (shows name)

theorem Module.ofText_holes_inner :
    ∃ m, ofText .unlimited "f\"\x7bf'\x7bbar()\x7d'\x7d\"" = .ok m ∧ "bar" ∈ m.verdict.calls := by
  have accepted : ((ofText .unlimited "f\"\x7bf'\x7bbar()\x7d'\x7d\"").toOption.map fun _ => ()) =
      some () := by
    decide +kernel
  have outer : ((Script.tokens (utf8 "f\"\x7bf'\x7bbar()\x7d'\x7d\"")).toOption.map fun tokens =>
      decide (⟨"f'\x7bbar()\x7d'", none⟩ ∈ holesIn tokens ∧
        ∀ t ∈ tokens, Mark.ofKind? t.kind ≠ some (.word .defKw))) = some true := by
    decide +kernel
  have inner : ((Script.tokens (utf8 (trim "f'\x7bbar()\x7d'"))).toOption.map fun source =>
      decide (⟨"bar()", none⟩ ∈ holesIn (firstLine source))) = some true := by
    decide +kernel
  have line : ((Script.tokens (utf8 (trim "bar()"))).toOption.map fun source =>
      decide (∀ t ∈ otherLines source, t.kind.endsLine = true)) = some true := by
    decide +kernel
  have calls : ((ofText .unlimited (trim "bar()")).toOption.map fun own =>
      decide ("bar" ∈ own.verdict.calls)) = some true := by
    decide +kernel
  obtain ⟨m, parsed, -⟩ := ok_of_known accepted
  obtain ⟨own, ownParsed, calls⟩ := ok_of_known calls
  obtain ⟨tokens, lexed, all⟩ := ofText_holes parsed
  obtain ⟨tokens', lexed', outer⟩ := ok_of_known outer
  cases lexed.symm.trans lexed'
  obtain ⟨written, noFunction⟩ := of_decide_eq_true outer
  obtain ⟨source, lexed₁, inner⟩ := ok_of_known inner
  obtain ⟨source₂, value, ⟨lexed₂, -⟩, whole⟩ := all ⟨"bar()", none⟩
    (.inner (.outer written (Grammar.not_lost_of_no_function noFunction)) lexed₁
      (of_decide_eq_true inner))
  obtain ⟨source₂', lexed₂', line⟩ := ok_of_known line
  cases lexed₂.symm.trans lexed₂'
  exact ⟨m, parsed, ((whole (of_decide_eq_true line)).2 _ own ownParsed).2 "bar"
    (of_decide_eq_true calls)⟩

/-- What stands on another line of a hole is not read: neither its tokens nor its calls are in the
tree, though the source calls it. Nor is there a call in the annotation of a parameter whose place
another one takes. -/
theorem Module.holes_read_in_part :
    (∃ m own source value,
      ofText defaultLimits "f'\x7bA\\nfoo()\x7d'\n" = .ok m ∧
      m.Holds ⟨"A\nfoo()", none⟩ source value ∧
      (∃ t ∈ otherLines source, t.kind.endsLine = false) ∧
      ofText defaultLimits (trim "A\nfoo()") = .ok own ∧
      (own.Shows (.call "foo") ∧ "foo" ∈ own.verdict.calls) ∧
      ¬m.Shows (.call "foo") ∧ "foo" ∉ m.verdict.calls) ∧
    ∃ m tokens,
      ofText defaultLimits "def f(*a: f'{foo()}', *b): pass\n" = .ok m ∧
      Script.tokens (utf8 "def f(*a: f'{foo()}', *b): pass\n") = .ok tokens ∧
      ⟨"foo()", none⟩ ∈ holesIn tokens ∧ ¬m.Shows (.call "foo") ∧ "foo" ∉ m.verdict.calls := by
  have shows (m : Module) : m.Shows (.call "foo") ↔ "foo" ∈ m.verdict.calls := by
    rw [mem_verdict_calls]
    exact (and_iff_left (by decide)).symm
  have parsed : ((ofText defaultLimits "f'\x7bA\\nfoo()\x7d'\n").toOption.map fun m =>
      decide ("foo" ∈ m.verdict.calls)) = some false := by
    decide +kernel
  have written : ((Script.tokens (utf8 "f'\x7bA\\nfoo()\x7d'\n")).toOption.map fun tokens =>
      decide (⟨"A\nfoo()", none⟩ ∈ holesIn tokens ∧
        ∀ t ∈ tokens, Mark.ofKind? t.kind ≠ some (.word .defKw))) = some true := by
    decide +kernel
  have further : ((Script.tokens (utf8 (trim "A\nfoo()"))).toOption.map fun source =>
      decide (∃ t ∈ otherLines source, t.kind.endsLine = false)) = some true := by
    decide +kernel
  have calls : ((ofText defaultLimits (trim "A\nfoo()")).toOption.map fun own =>
      decide ("foo" ∈ own.verdict.calls)) = some true := by
    decide +kernel
  have replaced : ((ofText defaultLimits "def f(*a: f'{foo()}', *b): pass\n").toOption.map fun m =>
      decide ("foo" ∈ m.verdict.calls)) = some false := by
    decide +kernel
  have annotated : ((Script.tokens (utf8 "def f(*a: f'{foo()}', *b): pass\n")).toOption.map
      fun tokens => decide (⟨"foo()", none⟩ ∈ holesIn tokens)) = some true := by
    decide +kernel
  constructor
  · obtain ⟨m, parsed, unlisted⟩ := ok_of_known parsed
    obtain ⟨tokens, lexed, parsed'⟩ := ok_of_ofText parsed
    obtain ⟨tokens', lexed', written⟩ := ok_of_known written
    cases lexed.symm.trans lexed'
    obtain ⟨written, noFunction⟩ := of_decide_eq_true written
    obtain ⟨s, inBody, fills⟩ := Grammar.script_fills parsed' (tokens_endsOnce lexed) written
      (Grammar.not_lost_of_no_function noFunction)
    obtain ⟨source, value, holds, -⟩ := Grammar.holds_of_fills inBody fills
    obtain ⟨source', lexed₁, further⟩ := ok_of_known further
    cases holds.1.symm.trans lexed₁
    obtain ⟨own, ownParsed, listed⟩ := ok_of_known calls
    have listed := of_decide_eq_true listed
    have unlisted := of_decide_eq_false unlisted
    exact ⟨m, own, source, value, parsed, holds, of_decide_eq_true further, ownParsed,
      ⟨(shows own).2 listed, listed⟩, mt (shows m).1 unlisted, unlisted⟩
  · obtain ⟨m, parsed, unlisted⟩ := ok_of_known replaced
    obtain ⟨tokens, lexed, written⟩ := ok_of_known annotated
    have unlisted := of_decide_eq_false unlisted
    exact ⟨m, tokens, parsed, lexed, of_decide_eq_true written, mt (shows m).1 unlisted, unlisted⟩

end ScoreScript.Script
