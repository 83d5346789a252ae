import ScoreScript.Proofs.Brackets.Nesting
import ScoreScript.Proofs.Holes.Expression

/-!
What rules make of the brackets among the tokens they use. A rule that starts where some brackets
have been opened closes just these: whatever it opens itself it closes again (`Rule.Closes`). The
steps that take a token tell what is open behind it, and what reads a part without looking at
brackets closes none.
-/

namespace ScoreScript.Script

open Bracket

/-- The kind of token that a mark is. -/
def Mark.kind : Mark → TokenKind
  | .op sign => .op sign
  | .word keyword => .keyword keyword

theorem Mark.kind_eq {mark : Mark} {kind : TokenKind} (found : Mark.ofKind? kind = some mark) :
    kind = mark.kind := by
  cases kind <;> cases found <;> rfl

namespace Rule

variable {α β : Type} {n : Nesting} {s : Stream} {rule : Rule α} {opened left : List Bracket}

/-- The tokens that the rule uses from the stream close the brackets that have been opened, and
leave no other ones open. -/
def ClosesAt (opened : List Bracket) (rule : Rule α) (s : Stream) : Prop :=
  ∀ n a t, rule n s = .ok (a, t) →
    ∃ used, s.rest = used ++ t.rest ∧ passAll opened used = some []

/-- From whatever stream. -/
def Closes (opened : List Bracket) (rule : Rule α) : Prop :=
  ∀ s, ClosesAt opened rule s

/-- What closes brackets behind the next token does so with it. -/
theorem closing_of_advance {t : Stream} (pass : pass opened s.current.kind = some left)
    (later : ∃ used, s.advance.rest = used ++ t.rest ∧ passAll left used = some []) :
    ∃ used, s.rest = used ++ t.rest ∧ passAll opened used = some [] := by
  obtain ⟨used, split, passed⟩ := later
  by_cases ended : s.current.kind.isEof = true
  · have still : Bracket.pass opened s.current.kind = some opened := by
      cases kind : s.current.kind <;> rw [kind] at ended <;> first | rfl | cases ended
    cases still.symm.trans pass
    exact ⟨used, (s.rest_advance_of_eof ended).symm.trans split, passed⟩
  · refine ⟨s.current :: used, ?_, ?_⟩
    · rw [s.rest_eq_cons (eq_false_of_ne_true ended), split, List.cons_append]
    · rw [passAll_cons, pass]
      exact passed

namespace ClosesAt

theorem seq {next : α → Rule β} (h : ClosesAt opened rule s) (h' : ∀ a, Closes left (next a)) :
    ClosesAt (opened ++ left) (rule >>= next) s := by
  intro n b u done
  obtain ⟨⟨a, t⟩, first, second⟩ := ok_of_bind (show rule n s >>= _ = .ok (b, u) from done)
  obtain ⟨used, split, passed⟩ := h n a t first
  obtain ⟨used', split', passed'⟩ := h' a t n b u second
  refine ⟨used ++ used', by rw [split, split', List.append_assoc], ?_⟩
  rw [passAll_append, passAll_frame passed left]
  exact passed'

theorem skip {next : α → Rule β} (h : ClosesAt [] rule s) (h' : ∀ a, Closes opened (next a)) :
    ClosesAt opened (rule >>= next) s :=
  h.seq h'

/-- Nothing is left to close. -/
theorem bind {next : α → Rule β} (h : ClosesAt opened rule s) (h' : ∀ a, Closes [] (next a)) :
    ClosesAt opened (rule >>= next) s := by
  have whole := h.seq h'
  rwa [List.append_nil] at whole

theorem passed {rule' : Rule α} (pass : pass opened s.current.kind = some left)
    (same : ∀ n, rule n s = rule' n s.advance) (h : ClosesAt left rule' s.advance) :
    ClosesAt opened rule s :=
  fun n a t done => closing_of_advance pass (h n a t ((same n).symm.trans done))

theorem taken {next : Token TokenKind → Rule β} (pass : pass opened s.current.kind = some left)
    (h : ∀ t, Closes left (next t)) : ClosesAt opened (take >>= next) s :=
  passed pass (fun _ => rfl) (h s.current s.advance)

/-- A token of a known kind is taken. -/
theorem takenKind {next : Token TokenKind → Rule β} {kind : TokenKind}
    (found : s.current.kind = kind) (pass : pass opened kind = some left)
    (h : ∀ t, Closes left (next t)) : ClosesAt opened (take >>= next) s :=
  taken (by rw [found, pass]) h

/-- A name that has been found is read. -/
theorem named {next : String → Rule β} {id : String} (found : s.current.kind = .name id)
    (h : ClosesAt opened (next id) s.advance) : ClosesAt opened (name >>= next) s := by
  refine passed (by rw [found]; rfl) (fun n => ?_) h
  change (name n s >>= fun result => next result.1 n result.2) = _
  rw [name_found found]
  rfl

theorem ahead {next : TokenKind → Rule β} (h : ClosesAt opened (next s.second.kind) s) :
    ClosesAt opened (lookAhead >>= next) s :=
  fun n => h n

end ClosesAt

namespace Closes

theorem seq {next : α → Rule β} (h : Closes opened rule) (h' : ∀ a, Closes left (next a)) :
    Closes (opened ++ left) (rule >>= next) :=
  fun s => (h s).seq h'

/-- A part that closes what it opens. -/
theorem skip {next : α → Rule β} (h : Closes [] rule) (h' : ∀ a, Closes opened (next a)) :
    Closes opened (rule >>= next) :=
  fun s => (h s).skip h'

theorem bind {next : α → Rule β} (h : Closes opened rule) (h' : ∀ a, Closes [] (next a)) :
    Closes opened (rule >>= next) :=
  fun s => (h s).bind h'

theorem of_quiet (quiet : ∀ n s a t, rule n s = .ok (a, t) → t = s) : Closes [] rule :=
  fun s n a t done => ⟨[], by rw [quiet n s a t done]; rfl, rfl⟩

theorem pure {a : α} : Closes [] (Pure.pure a) :=
  of_quiet fun _ _ _ _ done => by cases done; rfl

theorem map {f : α → β} (h : Closes opened rule) : Closes opened (f <$> rule) :=
  have all : Closes opened (rule >>= fun a => Pure.pure (f a)) := h.bind fun _ => pure
  all

theorem ite {c : Prop} [Decidable c] {other : Rule α} (h : Closes opened rule)
    (h' : Closes opened other) : Closes opened (if c then rule else other) := by
  split
  · exact h
  · exact h'

/-! ### Single tokens -/

theorem look {next : TokenKind → Rule β}
    (h : ∀ s, ClosesAt opened (next s.current.kind) s) : Closes opened (look >>= next) :=
  fun s n => h s n

theorem here : Closes [] here :=
  of_quiet fun _ _ _ _ done => by cases done; rfl

theorem spanFrom {start : Pos} : Closes [] (spanFrom start) :=
  of_quiet fun _ _ _ _ done => by cases done; rfl

theorem isNext {mark : Mark} : Closes [] (isNext mark) :=
  of_quiet fun _ _ _ _ done => by cases done; rfl

theorem lift {result : Except Error α} : Closes [] (lift result) :=
  of_quiet fun n s a t done => by
    obtain ⟨_, -, ⟨⟩⟩ := ok_of_map (show result.map (·, s) = .ok (a, t) from done)
    rfl

theorem fail {cause : GrammarError} {span : Span} : Closes opened (fail cause span : Rule α) :=
  fun _ _ _ _ failed => nomatch failed

theorem unexpected {wanted : String} : Closes opened (unexpected wanted : Rule α) :=
  fun _ _ _ _ failed => nomatch failed

/-- It is known in either case whether the mark comes next. -/
theorem ifNext {next : Bool → Rule β} {mark : Mark}
    (found : ∀ s, s.current.kind = mark.kind → ClosesAt opened (next true) s)
    (absent : Closes opened (next false)) : Closes opened (Rule.isNext mark >>= next) := by
  intro s n b u done
  change next (Mark.ofKind? s.current.kind == some mark) n s = .ok (b, u) at done
  by_cases same : Mark.ofKind? s.current.kind = some mark
  · rw [beq_iff_eq.2 same] at done
    exact found s (Mark.kind_eq same) n b u done
  · rw [beq_false_of_ne same] at done
    exact absent s n b u done

/-- A mark is read, or another way is taken. -/
theorem accept {next : Bool → Rule β} {mark : Mark} (passed : pass opened mark.kind = some left)
    (h : Closes left (next true)) (h' : Closes opened (next false)) :
    Closes opened (accept mark >>= next) := by
  intro s
  by_cases same : Mark.ofKind? s.current.kind = some mark
  · refine .passed (by rw [Mark.kind_eq same, passed]) (fun n => ?_) (h s.advance)
    change Rule.accept mark n s >>= _ = _
    rw [accept_found same]
    rfl
  · intro n b u done
    refine h' s n b u ?_
    rw [← done]
    change _ = Rule.accept mark n s >>= _
    rw [accept_absent same]
    rfl

theorem expect {next : Unit → Rule β} {mark : Mark} (passed : pass opened mark.kind = some left)
    (h : Closes left (next ())) : Closes opened (expect mark >>= next) := by
  intro s n b u done
  obtain ⟨⟨⟨⟩, t⟩, first, second⟩ :=
    ok_of_bind (show Rule.expect mark n s >>= _ = .ok (b, u) from done)
  obtain ⟨found, rfl⟩ := expect_ok first
  exact closing_of_advance (by rw [Mark.kind_eq found, passed]) (h s.advance n b u second)

theorem name {next : String → Rule β} (h : ∀ id, Closes opened (next id)) :
    Closes opened (name >>= next) := by
  intro s n b u done
  obtain ⟨⟨id, t⟩, first, second⟩ :=
    ok_of_bind (show Rule.name n s >>= _ = .ok (b, u) from done)
  obtain ⟨found, rfl⟩ := name_ok first
  exact closing_of_advance (by rw [found]; rfl) (h id s.advance n b u second)

/-! ### Nesting and repetition -/

theorem nested (h : Closes opened rule) : Closes opened (nested rule) := by
  intro s n a t done
  unfold Rule.nested at done
  split at done
  · exact h s _ a t done
  · cases done

/-- A part that is read behind a mark, if the mark is there. -/
theorem behind {mark : Mark} (passed : pass [] mark.kind = some []) (h : Closes [] rule) :
    Closes [] (Rule.when? (Rule.accept mark) rule) :=
  accept passed h.map pure

theorem when? {present : Rule Bool} (p : Closes [] present) (h : Closes [] rule) :
    Closes [] (Rule.when? present rule) :=
  p.skip fun _ => ite h.map pure

theorem loop {round : α → Rule (Option α)} {a : α} (h : ∀ a, Closes [] (round a)) :
    Closes [] (loop round a) := by
  intro s
  induction size : s.size using Nat.strongRecOn generalizing a s with
  | ind m ih =>
    intro n c u done
    rw [Rule.loop] at done
    split at done
    · cases done
    · rename_i first
      cases done
      exact h _ s n _ _ first
    · rename_i b after first
      obtain ⟨used, split, passed⟩ := h _ s n _ _ first
      split at done
      · rename_i less
        obtain ⟨used', split', passed'⟩ := ih after.size (size ▸ less) after rfl n c u done
        refine ⟨used ++ used', by rw [split, split', List.append_assoc], ?_⟩
        rw [passAll_append, passed]
        exact passed'
      · cases done
        exact ⟨used, split, passed⟩

theorem many {round : Rule (Option α)} (h : Closes [] round) : Closes [] (many round) :=
  (loop fun _ => h.skip fun _ => pure).skip fun _ => pure

theorem separated (h : Closes [] rule) : Closes [] (separated rule) :=
  h.skip fun _ => (many (behind rfl h)).skip fun _ => pure

theorem addFurther {isEnd : Rule Bool} {add : α → Rule α} {a : α} (e : Closes [] isEnd)
    (h : ∀ a, Closes [] (add a)) : Closes [] (addFurther isEnd add a) :=
  loop fun a => accept rfl (e.skip fun _ => ite pure (h a).map) pure

theorem addItems {isEnd : Rule Bool} {add : α → Rule α} {a : α} (e : Closes [] isEnd)
    (h : ∀ a, Closes [] (add a)) : Closes [] (addItems isEnd add a) :=
  e.skip fun _ => ite pure ((h a).skip fun _ => addFurther e h)

theorem furtherItems {isEnd : Rule Bool} {first : α} (e : Closes [] isEnd) (h : Closes [] rule) :
    Closes [] (furtherItems isEnd rule first) :=
  (addFurther e fun _ => h.skip fun _ => pure).skip fun _ => pure

theorem items {isEnd : Rule Bool} (e : Closes [] isEnd) (h : Closes [] rule) :
    Closes [] (items isEnd rule) :=
  (addItems e fun _ => h.skip fun _ => pure).skip fun _ => pure

end Closes

end Rule

end ScoreScript.Script
