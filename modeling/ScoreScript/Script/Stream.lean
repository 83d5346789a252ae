import ScoreScript.Limits
import ScoreScript.Script.Token

/-!
The tokens still to be read, and what a rule of the grammar is: a way to read some of them, at
some depth of nesting. The combinators of this module are all that rules are built from. None
of them gives a token back, and a loop ends as soon as a round reads nothing.
-/

namespace ScoreScript.Script

/-- The tokens still to be read and their number, where the token before them ended, and the
place of the end of the text, which is read again and again. -/
structure Stream where
  rest : List (Token TokenKind)
  size : Nat
  previous : Pos
  ending : Span
  size_eq : size = rest.length

namespace Stream

def ofTokens (tokens : List (Token TokenKind)) : Stream :=
  ⟨tokens, tokens.length, ⟨0, 0, 0⟩, (tokens.getLast?.map (·.span)).getD .nowhere, rfl⟩

instance : Inhabited Stream := ⟨.ofTokens []⟩

def finalToken (s : Stream) : Token TokenKind :=
  ⟨.eof, s.ending⟩

/-- The next token. -/
def current (s : Stream) : Token TokenKind :=
  s.rest.headD s.finalToken

/-- The token after the next one. -/
def second (s : Stream) : Token TokenKind :=
  s.rest.tail.headD s.finalToken

/-- Pass the next token; the end of the text is not passed. -/
def advance (s : Stream) : Stream :=
  if s.current.kind.isEof then { s with previous := s.current.span.stop }
  else
    { s with
      rest := s.rest.tail
      size := s.size - 1
      previous := s.current.span.stop
      size_eq := by rw [s.size_eq, List.length_tail] }

theorem size_advance_le (s : Stream) : s.advance.size ≤ s.size := by
  unfold advance
  split
  · exact Nat.le_refl _
  · exact Nat.sub_le _ _

theorem size_advance_lt {s : Stream} (h : s.current.kind.isEof = false) :
    s.advance.size < s.size := by
  have nonempty : 0 < s.size := by
    rw [s.size_eq]
    cases rest_eq : s.rest with
    | nil => simp [current, rest_eq, finalToken, TokenKind.isEof] at h
    | cons first rest => simp
  unfold advance
  rw [h]
  exact Nat.sub_lt nonempty (by decide)

end Stream

/-- How deep constructs may nest, where zero allows any depth, and how deep they do. -/
structure Nesting where
  limit : Nat
  depth : Nat
  deriving DecidableEq, Repr

/-- Reading by a rule: it fails, or yields what it read and the tokens that are left. -/
abbrev Rule := ReaderT Nesting (StateT Stream (Except Error))

/-- A token with only one spelling. -/
inductive Mark where
  | op (sign : Operator)
  | word (keyword : Keyword)
  deriving DecidableEq, Repr

namespace Mark

def text : Mark → String
  | op sign => "'" ++ sign.text ++ "'"
  | word keyword => "'" ++ keyword.text ++ "'"

/-- The mark that a token is. -/
def ofKind? : TokenKind → Option Mark
  | .op sign => some (op sign)
  | .keyword keyword => some (word keyword)
  | _ => none

end Mark

namespace Rule

/-- What kind of token comes next. -/
def look : Rule TokenKind := fun _ s => .ok (s.current.kind, s)

/-- What kind of token comes after the next one. -/
def lookAhead : Rule TokenKind := fun _ s => .ok (s.second.kind, s)

/-- Where the next token begins. -/
def here : Rule Pos := fun _ s => .ok (s.current.span.start, s)

/-- The span from `start` to the end of what has been read. -/
def spanFrom (start : Pos) : Rule Span := fun _ s => .ok (⟨start, s.previous.later start⟩, s)

/-- Read the next token, whatever it is. -/
def take : Rule (Token TokenKind) := fun _ s => .ok (s.current, s.advance)

def fail {α : Type} (cause : GrammarError) (span : Span) : Rule α := fun _ _ =>
  .error ⟨.grammar cause, span⟩

/-- Report that something else than the next token was expected. -/
def unexpected {α : Type} (wanted : String) : Rule α := fun _ s =>
  .error ⟨.grammar (.expected wanted s.current.kind.text), s.current.span⟩

/-- Whether the mark comes next. -/
def isNext (mark : Mark) : Rule Bool := do
  return Mark.ofKind? (← look) == some mark

/-- Read the mark if it comes next. -/
def accept (mark : Mark) : Rule Bool := do
  if ← isNext mark then
    let _ ← take
    return true
  else return false

def expect (mark : Mark) : Rule Unit := do
  unless ← accept mark do unexpected mark.text

def name : Rule String := do
  match ← look with
  | .name id =>
    let _ ← take
    return id
  | _ => unexpected "name"

/-- Read by `rule` one level deeper. -/
def nested {α : Type} (rule : Rule α) : Rule α := fun nesting s =>
  if Limits.allows nesting.limit (nesting.depth + 1) then
    rule ⟨nesting.limit, nesting.depth + 1⟩ s
  else .error ⟨.limit (.depth nesting.limit), s.current.span⟩

/-- What `rule` reads, if `present` tells that it is there. -/
def when? {α : Type} (present : Rule Bool) (rule : Rule α) : Rule (Option α) := do
  if ← present then some <$> rule else return none

/-- Read on from `a` until a round tells to stop. -/
def loop {α : Type} (round : α → Rule (Option α)) (a : α) : Rule α := fun nesting s =>
  match round a nesting s with
  | .error e => .error e
  | .ok (none, after) => .ok (a, after)
  | .ok (some b, after) =>
    if _ : after.size < s.size then loop round b nesting after else .ok (b, after)
termination_by _ s => s.size

/-- Read items until a round finds none. -/
def many {α : Type} (round : Rule (Option α)) : Rule (List α) := do
  let items ← loop (fun items => do return (← round).map (· :: items)) []
  return items.reverse

/-- Read one item, and another after each comma. -/
def separated {α : Type} (item : Rule α) : Rule (List α) := do
  let first ← item
  return first :: (← many (when? (accept (.op .comma)) item))

/-- Add an item to `a` after each comma; the last comma need not have an item. -/
def addFurther {α : Type} (isEnd : Rule Bool) (add : α → Rule α) (a : α) : Rule α :=
  loop (fun a => do
    if ← accept (.op .comma) then
      if ← isEnd then return none else some <$> add a
    else return none) a

/-- Add to `a` items separated by commas, up to where `isEnd` tells that they end. -/
def addItems {α : Type} (isEnd : Rule Bool) (add : α → Rule α) (a : α) : Rule α := do
  if ← isEnd then return a else addFurther isEnd add (← add a)

/-- Further items, each after a comma; the last comma need not have an item. -/
def furtherItems {α : Type} (isEnd : Rule Bool) (item : Rule α) (first : α) :
    Rule (List α) := do
  let items ← addFurther isEnd (fun items => return (← item) :: items) [first]
  return items.reverse

/-- Items up to where `isEnd` tells that they end, separated by commas. -/
def items {α : Type} (isEnd : Rule Bool) (item : Rule α) : Rule (List α) := do
  let items ← addItems isEnd (fun items => return (← item) :: items) []
  return items.reverse

/-- A computation that reads nothing. -/
def lift {α : Type} (result : Except Error α) : Rule α := fun _ s =>
  result.map (·, s)

end Rule

end ScoreScript.Script
