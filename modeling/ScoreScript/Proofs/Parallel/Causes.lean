import ScoreScript.Proofs.Parallel.Statement
import ScoreScript.Proofs.Stateful

/-!
What reading a script can fail for: its characters, its grammar, or a limit (`Cause.OfReading`). The
lexer is gone through reader by reader. A rule fails for what its parts fail for, so that for the
grammar it is enough to look at single steps and at the holes of format strings. Main statement:
`Module.ofText_fails`.
-/

namespace ScoreScript

/-- The causes that reading a script can have for a failure, where `lexical` tells what can be wrong
with its characters. -/
def Cause.OfReading (lexical : LexicalError → Prop) : Cause → Prop
  | .lexical e => lexical e
  | .grammar _ => True
  | .limit _ => True
  | _ => False

/-- It fails for a cause of reading, if it fails. -/
def FailsReading {α : Type} (lexical : LexicalError → Prop) (result : Except Error α) : Prop :=
  ∀ e, result = .error e → e.cause.OfReading lexical

namespace FailsReading

variable {α β : Type} {lexical : LexicalError → Prop} {result : Except Error α}

theorem ok {a : α} : FailsReading lexical (.ok a) :=
  fun _ failed => nomatch failed

theorem error {e : Error} (fits : e.cause.OfReading lexical) :
    FailsReading lexical (.error e : Except Error α) := by
  rintro _ ⟨⟩
  exact fits

theorem bind {next : α → Except Error β} (h : FailsReading lexical result)
    (h' : ∀ a, FailsReading lexical (next a)) : FailsReading lexical (result >>= next) := by
  cases result with
  | error e => exact error (h e rfl)
  | ok a => exact h' a

theorem map {f : α → β} (h : FailsReading lexical result) :
    FailsReading lexical (result.map f) := by
  cases result with
  | error e => exact error (h e rfl)
  | ok a => exact ok

end FailsReading

namespace Script

/-! ### Literals

What is wrong with numbers, escapes and operators is never that bytes are no text. -/

namespace Literal

variable {start c : Cursor} {form : StringForm} {quotes : Quotes} {place : Pos}

section

variable {lexical : LexicalError → Prop} (other : ∀ e, e ≠ .utf8 → lexical e)

include other

theorem badNumber_fails {α : Type} :
    FailsReading lexical (badNumber start c : Except Error α) :=
  .error (other _ (by rintro ⟨⟩))

theorem exponent_fails : FailsReading lexical (exponent start c) := by
  unfold exponent
  split
  · dsimp only
    split
    · split
      · exact .ok
      · exact badNumber_fails other
    · split
      · exact .ok
      · exact badNumber_fails other
  · exact .ok

theorem numberEnd_fails : FailsReading lexical (numberEnd start) := by
  unfold numberEnd
  split
  · exact (exponent_fails other).bind fun _ => .ok
  · exact .ok

theorem readNumber_fails : FailsReading lexical (readNumber start) := by
  unfold readNumber
  refine (numberEnd_fails other).bind fun (stop, isFloat) => ?_
  dsimp only
  split
  · split
    · exact badNumber_fails other
    · exact .ok
  · exact badNumber_fails other

theorem numbered_fails {n : Option Nat} {length : Nat} :
    FailsReading lexical (numbered place n length) := by
  unfold numbered
  split
  · exact .ok
  · exact .error (other _ (by rintro ⟨⟩))

theorem escape_fails : FailsReading lexical (escape c) := by
  unfold escape
  split
  · exact .error (other _ (by rintro ⟨⟩))
  · exact .ok
  · exact .ok
  · exact .error (other _ (by rintro ⟨⟩))
  · split
    · exact .ok
    · exact numbered_fails other
    · dsimp only
      split
      · exact .ok
      · exact numbered_fails other

theorem stringPart_fails {b : UInt8} :
    FailsReading lexical (stringPart quotes form place c b) := by
  unfold stringPart
  split
  · split
    · exact .ok
    · split
      · exact .ok
      · exact .ok
  · split
    · exact .error (other _ (by rintro ⟨⟩))
    · split
      · split
        · split
          · exact .ok
          · exact .ok
        · exact (escape_fails other).map
      · exact .ok

end

theorem stringRest_fails {read : List UInt8} :
    FailsReading (fun _ => True) (stringRest quotes form place c read) := by
  fun_induction stringRest quotes form place c read with
  | case1 c read ended => exact .error trivial
  | case2 c read b rest here e failed =>
    exact .error (stringPart_fails (fun _ _ => trivial) e failed)
  | case3 c read b rest here length part =>
    unfold closeString
    split
    · exact .ok
    · exact .error trivial
  | case4 c read b rest here more extra part less ih => exact ih

theorem readString_fails : FailsReading (fun _ => True) (readString form c) := by
  unfold readString
  split
  · exact .error trivial
  · exact stringRest_fails

end Literal

/-! ### Tokens -/

namespace Layout

variable {c : Cursor} {s : Layout}

section

variable {lexical : LexicalError → Prop} (other : ∀ e, e ≠ .utf8 → lexical e)

include other

theorem readOperator_fails {b : UInt8} : FailsReading lexical (readOperator c b) := by
  unfold readOperator
  split
  · exact .ok
  · exact .error (other _ (by rintro ⟨⟩))

theorem indentTo_fails {width : Nat} {span : Span} :
    FailsReading lexical (indentTo width span s) := by
  unfold indentTo
  dsimp only
  split
  · exact .ok
  · split
    · exact .ok
    · exact .error (other _ (by rintro ⟨⟩))

end

theorem readToken_fails {b : UInt8} : FailsReading (fun _ => True) (readToken c b) := by
  unfold readToken
  split
  · exact Literal.readString_fails
  · split
    · exact Literal.readNumber_fails fun _ _ => trivial
    · split
      · unfold readWord
        dsimp only
        split
        · exact .error trivial
        · split
          · exact Literal.readString_fails
          · exact .ok
          · exact .ok
      · exact readOperator_fails fun _ _ => trivial

theorem beginLine_fails : FailsReading (fun _ => True) (beginLine s) := by
  unfold beginLine
  dsimp only
  split
  all_goals first
  | exact .ok
  | exact (indentTo_fails fun _ _ => trivial).map

theorem readItem_fails : FailsReading (fun _ => True) (readItem s) := by
  unfold readItem
  dsimp only
  split
  · exact .ok
  · split
    · exact .ok
    · split
      · exact .ok
      · exact .error trivial
    · split <;> exact .ok
    · split <;> exact .ok
    · exact readToken_fails.map

theorem step_fails : FailsReading (fun _ => True) (step s) := by
  unfold step
  split
  · split
    · rename_i e failed
      exact .error (beginLine_fails e failed)
    · exact .ok
    · exact readItem_fails
  · exact readItem_fails

theorem run_fails : FailsReading (fun _ => True) s.run := by
  fun_induction run s with
  | case1 s e failed => exact .error (step_fails e failed)
  | case2 s ended => exact .ok
  | case3 s next here less ih => exact ih

end Layout

theorem tokens_fails {bytes : List UInt8} : FailsReading (fun _ => True) (tokens bytes) :=
  Layout.run_fails

/-! ### Trees -/

section

variable {lexical : LexicalError → Prop}

mutual

theorem Expr.toTarget_fails (use : Use) : (e : Expr) → FailsReading lexical (e.toTarget use)
  | .name .. | .member .. | .subscript .. => .ok
  | .starred value _ _ => by
    unfold Expr.toTarget
    exact (Expr.toTarget_fails use value).bind fun _ => .ok
  | .tuple items _ _ => by
    unfold Expr.toTarget
    exact (toTargets_fails use items).bind fun _ => .ok
  | .list items _ _ => by
    unfold Expr.toTarget
    exact (toTargets_fails use items).bind fun _ => .ok
  | .constant .. | .set .. | .dict .. | .call .. | .slice .. | .unary .. | .binary ..
  | .boolean .. | .compare .. | .lambda .. | .conditional .. | .named .. | .listComp ..
  | .setComp .. | .dictComp .. | .generator .. | .joined .. | .formatted .. | .await ..
  | .yield .. | .yieldFrom .. => .error trivial

theorem toTargets_fails (use : Use) :
    (items : List Expr) → FailsReading lexical (toTargets use items)
  | [] => .ok
  | e :: rest => by
    unfold toTargets
    exact (Expr.toTarget_fails use e).bind fun _ => (toTargets_fails use rest).bind fun _ => .ok

end

end

namespace Rule

variable {α β : Type} {lexical : LexicalError → Prop}

/-- Wherever it is used, the rule fails for a cause of reading, if it fails. -/
def AllFailReading (lexical : LexicalError → Prop) (rule : Rule α) : Prop :=
  ∀ n s, FailsReading lexical (rule n s)

theorem AllFailReading.loop {round : α → Rule (Option α)} {a : α}
    (h : ∀ a, AllFailReading lexical (round a)) : AllFailReading lexical (loop round a) := by
  intro n s
  fun_induction Rule.loop round a n s with
  | case1 a s e failed => exact .error (h a n s e failed)
  | case3 a s b after here less ih => exact ih
  | _ => exact .ok

theorem AllFailReading.of_parallel {rule rule' : Rule α}
    (h : Parallel (fun _ rule _ => AllFailReading lexical rule) rule rule') :
    AllFailReading lexical rule := by
  induction h with
  | given h => exact h
  | bind _ _ ih ih' => exact fun n s => (ih n s).bind fun (a, t) => ih' a n t
  | fail => exact fun _ _ => .error trivial
  | unexpected => exact fun _ _ => .error trivial
  | lift => exact fun _ _ => (Expr.toTarget_fails _ _).map
  | nested _ ih =>
    intro n s
    unfold Rule.nested
    split
    · exact ih _ s
    · exact .error trivial
  | loop _ ih => exact .loop ih
  | _ => exact fun _ _ => .ok

/-- A rule taken beside itself: what its given parts fail for, it fails for. -/
theorem AllFailReading.of_parts {rule : Rule α}
    (h : Parallel (fun _ rule _ => AllFailReading lexical rule) rule rule) :
    AllFailReading lexical rule :=
  of_parallel h

end Rule

namespace Grammar

open Rule

variable {lexical : LexicalError → Prop}

theorem knot_fails {hole : Nat → String → Except Error Expr}
    (h : ∀ room source, FailsReading lexical (hole room source)) (size : Nat) :
    Knot.Parallel (fun _ rule _ => AllFailReading lexical rule) (knot hole size)
      (knot hole size) := by
  refine knot_parallel (fun k k' same same' source span n s => ?_) size
  unfold holeValue
  dsimp only
  rw [same]
  split
  · exact .ok
  · rename_i e failed
    exact .error (h _ source e failed)

/-- A hole fails as its tokens do, or for the grammar or a limit. -/
theorem readHole_fails (tokens : ∀ text, FailsReading lexical (tokens (utf8 text)))
    (levels : Nat) : ∀ room source, FailsReading lexical (readHole levels room source) := by
  induction levels with
  | zero => exact fun _ _ => .error trivial
  | succ levels ih =>
    intro room source
    unfold readHole
    refine (tokens _).bind fun tokens => ?_
    refine FailsReading.bind (AllFailReading.of_parts ?_ _ _) fun _ => .ok
    refine (expressions_parallel (knot_fails ih _)).bind fun value => .bind .look fun kind => ?_
    split
    · exact .pure
    · exact .pure
    · exact .unexpected

end Grammar

/-- A text fails as the tokens of texts do, or for the grammar or a limit. -/
theorem Module.ofText_fails_of_tokens {lexical : LexicalError → Prop}
    (tokens : ∀ text, FailsReading lexical (tokens (utf8 text))) (limits : Limits) (text : String) :
    FailsReading lexical (ofText limits text) := by
  have sized : FailsReading lexical (limits.checkSize (utf8 text).length) := by
    unfold Limits.checkSize
    split
    · exact .ok
    · exact .error trivial
  refine sized.bind fun _ => (tokens text).bind fun read => ?_
  have knot := Grammar.knot_fails (Grammar.readHole_fails tokens (utf8 text).length) read.length
  exact (Rule.AllFailReading.of_parts (Grammar.script_parallel knot) _ _).bind fun _ => .ok

/-- A text that is no script is refused for its characters, for its grammar, or by a limit. -/
theorem Module.ofText_fails (limits : Limits) (text : String) :
    FailsReading (fun _ => True) (ofText limits text) :=
  ofText_fails_of_tokens (fun _ => tokens_fails) limits text

end Script

end ScoreScript
