import ScoreScript.Proofs.Tokens.Blocks

/-!
Brackets among tokens. They are nested if each one that opens is closed by one of its kind and what
is between them is nested (`Nested`), and a place among tokens is as deep as there are such pairs
around it (`Enclosed`). Both are told by passing the tokens one by one, with the brackets that are
open, innermost first (`nested_iff`, `enclosed_iff`), so that a count of open brackets that does not
look at kinds is the depth (`openBrackets_eq`).
-/

namespace ScoreScript.Script

/-- A kind of brackets. -/
inductive Bracket where
  | round | square | brace
  deriving DecidableEq, Repr

namespace Bracket

def closing : Bracket → Operator
  | round => .rightParen
  | square => .rightBracket
  | brace => .rightBrace

/-- The kind of brackets that a token opens. -/
def opens? : TokenKind → Option Bracket
  | .op .leftParen => some round
  | .op .leftBracket => some square
  | .op .leftBrace => some brace
  | _ => none

/-- The kind of brackets that a token closes. -/
def closes? : TokenKind → Option Bracket
  | .op .rightParen => some round
  | .op .rightBracket => some square
  | .op .rightBrace => some brace
  | _ => none

/-- The brackets that are open behind a token. Only the innermost one can be closed. -/
def pass (stack : List Bracket) (kind : TokenKind) : Option (List Bracket) :=
  match opens? kind, closes? kind with
  | some b, _ => some (b :: stack)
  | none, none => some stack
  | none, some b => if stack.head? = some b then some stack.tail else none

/-- The brackets that are open behind tokens. -/
def passAll (stack : List Bracket) (tokens : List (Token TokenKind)) : Option (List Bracket) :=
  tokens.foldlM (fun stack t => pass stack t.kind) stack

section

variable {stack stack' rest : List Bracket} {kind : TokenKind} {b : Bracket}
  {t : Token TokenKind} {tokens more : List (Token TokenKind)}

theorem closes?_of_opens? (opens : opens? kind = some b) : closes? kind = none := by
  unfold opens? at opens
  split at opens <;> first | rfl | cases opens

theorem opens?_of_closes? (closes : closes? kind = some b) : opens? kind = none := by
  unfold closes? at closes
  split at closes <;> first | rfl | cases closes

theorem pass_of_opens (opens : opens? kind = some b) : pass stack kind = some (b :: stack) := by
  rw [pass, opens]

theorem pass_of_plain (plain : opens? kind = none) (plain' : closes? kind = none) :
    pass stack kind = some stack := by
  rw [pass, plain, plain']

theorem pass_of_closes (closes : closes? kind = some b) : pass (b :: stack) kind = some stack := by
  rw [pass, opens?_of_closes? closes, closes]
  exact if_pos rfl

/-- What a token does to the brackets that are open. -/
theorem pass_cases (passed : pass stack kind = some stack') :
    (∃ b, opens? kind = some b ∧ stack' = b :: stack) ∨
      (opens? kind = none ∧ closes? kind = none ∧ stack' = stack) ∨
      ∃ b, closes? kind = some b ∧ stack = b :: stack' := by
  unfold pass at passed
  split at passed
  · rename_i b opens
    cases passed
    exact .inl ⟨b, opens, rfl⟩
  · rename_i opens closes
    cases passed
    exact .inr (.inl ⟨opens, closes, rfl⟩)
  · rename_i b opens closes
    split at passed
    · rename_i top
      cases passed
      obtain ⟨others, rfl⟩ := List.head?_eq_some_iff.1 top
      exact .inr (.inr ⟨b, closes, rfl⟩)
    · cases passed

/-- Brackets further out do not matter. -/
theorem pass_append (passed : pass stack kind = some stack') (rest : List Bracket) :
    pass (stack ++ rest) kind = some (stack' ++ rest) := by
  obtain ⟨b, opens, rfl⟩ | ⟨opens, closes, rfl⟩ | ⟨b, closes, rfl⟩ := pass_cases passed
  · exact pass_of_opens opens
  · exact pass_of_plain opens closes
  · exact pass_of_closes closes

theorem passAll_cons :
    passAll stack (t :: tokens) = (pass stack t.kind).bind fun stack => passAll stack tokens :=
  List.foldlM_cons

theorem passAll_append :
    passAll stack (tokens ++ more) = (passAll stack tokens).bind fun stack => passAll stack more :=
  List.foldlM_append

theorem passAll_frame (passed : passAll stack tokens = some stack') (rest : List Bracket) :
    passAll (stack ++ rest) tokens = some (stack' ++ rest) := by
  induction tokens generalizing stack with
  | nil =>
    cases passed
    rfl
  | cons t tokens ih =>
    rw [passAll_cons] at passed ⊢
    obtain ⟨between, first, later⟩ := Option.bind_eq_some_iff.1 passed
    rw [pass_append first rest]
    exact ih later

/-- The count that does not look at kinds counts the brackets that are open, and is above zero where
one is closed. -/
theorem countBrackets_of_pass (passed : pass stack kind = some stack') :
    Layout.countBrackets stack.length kind = stack'.length ∧
      (closes? kind ≠ none → 0 < stack.length) := by
  obtain ⟨b, opens, rfl⟩ | ⟨opens, closes, rfl⟩ | ⟨b, closes, rfl⟩ := pass_cases passed
  · refine ⟨?_, fun closes => absurd (closes?_of_opens? opens) closes⟩
    unfold opens? at opens
    split at opens <;> first | rfl | cases opens
  · refine ⟨?_, fun closes' => absurd closes closes'⟩
    cases kind with
    | op sign => cases sign <;> first | rfl | (cases opens; done) | cases closes
    | _ => rfl
  · refine ⟨?_, fun _ => Nat.succ_pos _⟩
    unfold closes? at closes
    split at closes <;> first | rfl | cases closes

theorem openBrackets_eq (passed : passAll [] tokens = some stack) :
    openBrackets tokens = stack.length := by
  have counted : ∀ start, passAll start tokens = some stack →
      tokens.foldl (fun brackets t => Layout.countBrackets brackets t.kind) start.length =
        stack.length := by
    clear passed
    induction tokens with
    | nil =>
      rintro start ⟨⟩
      rfl
    | cons t tokens ih =>
      intro start passed
      rw [passAll_cons] at passed
      obtain ⟨between, first, later⟩ := Option.bind_eq_some_iff.1 passed
      rw [List.foldl_cons, (countBrackets_of_pass first).1]
      exact ih between later
  exact counted [] passed

end

end Bracket

/-! ### Nested brackets -/

open Bracket

/-- Each bracket that opens is closed by one of its kind, and what is between them is nested. -/
inductive Nested : List (Token TokenKind) → Prop where
  | nil : Nested []
  | plain {t : Token TokenKind} {rest : List (Token TokenKind)} (opens : opens? t.kind = none)
    (closes : closes? t.kind = none) (later : Nested rest) : Nested (t :: rest)
  | pair {b : Bracket} {t t' : Token TokenKind} {inner rest : List (Token TokenKind)}
    (opens : opens? t.kind = some b) (closes : closes? t'.kind = some b) (within : Nested inner)
    (later : Nested rest) : Nested (t :: (inner ++ t' :: rest))

/-- Between the tokens before it and those after it a place is inside of `n` pairs of brackets. -/
inductive Enclosed : (n : Nat) → (before after : List (Token TokenKind)) → Prop where
  | outside {before after : List (Token TokenKind)} (left : Nested before) (right : Nested after) :
    Enclosed 0 before after
  | inside {n : Nat} {b : Bracket} {t t' : Token TokenKind}
    {before left right after : List (Token TokenKind)} (around : Enclosed n before after)
    (opens : opens? t.kind = some b) (closes : closes? t'.kind = some b) (innerLeft : Nested left)
    (innerRight : Nested right) : Enclosed (n + 1) (before ++ t :: left) (right ++ t' :: after)

section

variable {stack : List Bracket} {b : Bracket} {t : Token TokenKind} {n : Nat}
  {tokens before after rest : List (Token TokenKind)}

namespace Nested

theorem append (h : Nested tokens) (h' : Nested rest) : Nested (tokens ++ rest) := by
  induction h with
  | nil => exact h'
  | plain opens closes later ih => exact .plain opens closes ih
  | @pair b t t' inner others opens closes within later _ ih =>
    have whole := Nested.pair opens closes within ih
    rwa [List.cons_append, List.append_assoc, List.cons_append]

theorem singleton (opens : opens? t.kind = none) (closes : closes? t.kind = none) :
    Nested [t] :=
  .plain opens closes .nil

theorem passAll_eq (h : Nested tokens) (stack : List Bracket) :
    passAll stack tokens = some stack := by
  induction h generalizing stack with
  | nil => rfl
  | plain opens closes later ih =>
    rw [passAll_cons, pass_of_plain opens closes]
    exact ih stack
  | @pair b t t' inner rest opens closes within later ih ih' =>
    rw [passAll_cons, pass_of_opens opens, Option.bind_some, passAll_append, ih, Option.bind_some,
      passAll_cons, pass_of_closes closes]
    exact ih' stack

end Nested

/-- Tokens that close all brackets are nested up to where they close the innermost one. -/
theorem closing_split (passed : passAll stack tokens = some []) :
    (stack = [] → Nested tokens) ∧ ∀ b others, stack = b :: others →
      ∃ inner t rest, tokens = inner ++ t :: rest ∧ Nested inner ∧ closes? t.kind = some b ∧
        passAll others rest = some [] := by
  -- What comes behind a pair is shorter, but no end of the tokens behind the first one.
  induction length : tokens.length using Nat.strongRecOn generalizing tokens stack with
  | ind m ih =>
    cases tokens with
    | nil =>
      cases passed
      exact ⟨fun _ => .nil, nofun⟩
    | cons t tokens =>
      rw [List.length_cons] at length
      rw [passAll_cons] at passed
      obtain ⟨between, first, later⟩ := Option.bind_eq_some_iff.1 passed
      have here := ih _ (by omega) later rfl
      obtain ⟨c, opens, rfl⟩ | ⟨opens, closes, rfl⟩ | ⟨c, closes, rfl⟩ := pass_cases first
      · obtain ⟨inner, t', rest, rfl, within, closes, later⟩ := here.2 c stack rfl
        rw [List.length_append, List.length_cons] at length
        have behind := ih rest.length (by omega) later rfl
        refine ⟨fun none => .pair opens closes within (behind.1 none), fun b others split => ?_⟩
        obtain ⟨inner', t'', rest', rfl, within', closes', later⟩ := behind.2 b others split
        refine ⟨t :: (inner ++ t' :: inner'), t'', rest', ?_, .pair opens closes within within',
          closes', later⟩
        simp only [List.cons_append, List.append_assoc]
      · refine ⟨fun none => .plain opens closes (here.1 none), fun b others split => ?_⟩
        obtain ⟨inner, t', rest, rfl, within, closes', later⟩ := here.2 b others split
        exact ⟨t :: inner, t', rest, rfl, .plain opens closes within, closes', later⟩
      · refine ⟨nofun, ?_⟩
        rintro b others ⟨⟩
        exact ⟨[], t, tokens, rfl, .nil, closes, later⟩

/-- Tokens that leave brackets open are nested from where they open the innermost one. -/
theorem opening_split (passed : passAll [] tokens = some stack) :
    (stack = [] → Nested tokens) ∧ ∀ b others, stack = b :: others →
      ∃ rest t inner, tokens = rest ++ t :: inner ∧ Nested inner ∧ opens? t.kind = some b ∧
        passAll [] rest = some others := by
  induction length : tokens.length using Nat.strongRecOn generalizing tokens stack with
  | ind m ih =>
    rcases tokens.eq_nil_or_concat with rfl | ⟨before, t, rfl⟩
    · cases passed
      exact ⟨fun _ => .nil, nofun⟩
    · rw [List.concat_eq_append] at passed length ⊢
      rw [List.length_append, List.length_singleton] at length
      rw [passAll_append] at passed
      obtain ⟨between, earlier, last⟩ := Option.bind_eq_some_iff.1 passed
      rw [passAll_cons] at last
      obtain ⟨_, last, ⟨⟩⟩ := Option.bind_eq_some_iff.1 last
      have here := ih _ (by omega) earlier rfl
      obtain ⟨c, opens, rfl⟩ | ⟨opens, closes, rfl⟩ | ⟨c, closes, rfl⟩ := pass_cases last
      · refine ⟨nofun, ?_⟩
        rintro b others ⟨⟩
        exact ⟨before, t, [], rfl, .nil, opens, earlier⟩
      · have one := Nested.singleton opens closes
        refine ⟨fun none => (here.1 none).append one, fun b others split => ?_⟩
        obtain ⟨rest, t', inner, rfl, within, opens', earlier⟩ := here.2 b others split
        refine ⟨rest, t', inner ++ [t], ?_, within.append one, opens', earlier⟩
        simp only [List.cons_append, List.append_assoc]
      · obtain ⟨rest, t', inner, rfl, within, opens, earlier⟩ := here.2 c stack rfl
        have pair : Nested (t' :: (inner ++ [t])) := .pair opens closes within .nil
        rw [List.length_append, List.length_cons] at length
        have outside := ih rest.length (by omega) earlier rfl
        refine ⟨fun none => ?_, fun b others split => ?_⟩
        · have whole := (outside.1 none).append pair
          simpa only [List.cons_append, List.append_assoc] using whole
        · obtain ⟨rest', t'', inner', rfl, within', opens', earlier⟩ := outside.2 b others split
          refine ⟨rest', t'', inner' ++ t' :: (inner ++ [t]), ?_, within'.append pair, opens',
            earlier⟩
          simp only [List.cons_append, List.append_assoc]

theorem nested_iff : Nested tokens ↔ passAll [] tokens = some [] :=
  ⟨fun h => h.passAll_eq [], fun passed => (closing_split passed).1 rfl⟩

/-- A place is inside of as many pairs as there are brackets open before it and closed after it. -/
theorem enclosed_iff : Enclosed n before after ↔
    ∃ stack, passAll [] before = some stack ∧ passAll stack after = some [] ∧ stack.length = n := by
  constructor
  · intro h
    induction h with
    | outside left right => exact ⟨[], left.passAll_eq [], right.passAll_eq [], rfl⟩
    | @inside n b t t' before left right after around opens closes innerLeft innerRight ih =>
      obtain ⟨stack, opened, closed, rfl⟩ := ih
      refine ⟨b :: stack, ?_, ?_, rfl⟩
      · rw [passAll_append, opened, Option.bind_some, passAll_cons, pass_of_opens opens]
        exact innerLeft.passAll_eq _
      · rw [passAll_append, innerRight.passAll_eq, Option.bind_some, passAll_cons,
          pass_of_closes closes]
        exact closed
  · rintro ⟨stack, opened, closed, rfl⟩
    induction stack generalizing before after with
    | nil => exact .outside ((opening_split opened).1 rfl) ((closing_split closed).1 rfl)
    | cons b stack ih =>
      obtain ⟨outer, t, left, rfl, innerLeft, opens, opened⟩ :=
        (opening_split opened).2 b stack rfl
      obtain ⟨right, t', outer', rfl, innerRight, closes, closed⟩ :=
        (closing_split closed).2 b stack rfl
      exact .inside (ih opened closed) opens closes innerLeft innerRight

end

end ScoreScript.Script
