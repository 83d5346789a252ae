/-!
Format strings as literal runs and holes. A hole holds an expression, perhaps a conversion
after `!`, and perhaps a format spec after `:`, which is a format string again; specs nest
twice and no deeper. Two braces of a kind stand for one, except in a spec.
-/

namespace ScoreScript.Script

inductive FormatPiece where
  | literal (text : String)
  | hole (source : String) (conversion : Option Char) (spec : Option (List FormatPiece))

namespace FormatPiece

/-- The expression of a hole, how it is converted, whether a spec follows, and the rest. -/
structure Head where
  source : String
  conversion : Option Char
  hasSpec : Bool
  rest : List Char

/-- What follows the `!` of a conversion: a letter, perhaps, and then the character that ends
the hole or begins its spec. -/
def readConversion (source : String) : List Char → Head
  | [] => ⟨source, none, false, []⟩
  | c :: rest =>
    if c.isAlpha then ⟨source, some c, rest.head? == some ':', rest.tail⟩
    else ⟨source, none, c == ':', rest⟩

/-- Read a hole up to its end or its spec. The expression is `source` in reverse, so far;
`quote` is the quotation mark of a string literal that is open, and `depth` counts open
brackets. -/
def readHead (quote : Option Char) (depth : Nat) (source : List Char) : List Char → Head
  | [] => ⟨String.ofList source.reverse, none, false, []⟩
  | c :: rest =>
    match quote with
    | some mark => readHead (if c = mark then none else quote) depth (c :: source) rest
    | none =>
      if c = '\'' ∨ c = '"' then readHead (some c) depth (c :: source) rest
      else if c = '(' ∨ c = '[' ∨ c = '{' then readHead none (depth + 1) (c :: source) rest
      else if 0 < depth ∧ (c = ')' ∨ c = ']' ∨ c = '}') then
        readHead none (depth - 1) (c :: source) rest
      else if c = '}' then ⟨String.ofList source.reverse, none, false, rest⟩
      else if depth = 0 ∧ c = '!' ∧ rest.head? ≠ some '=' then
        readConversion (String.ofList source.reverse) rest
      else if depth = 0 ∧ c = ':' then ⟨String.ofList source.reverse, none, true, rest⟩
      else readHead none depth (c :: source) rest

theorem length_readConversion_le (source : String) (text : List Char) :
    (readConversion source text).rest.length ≤ text.length := by
  unfold readConversion
  split
  · exact Nat.le_refl _
  · split
    · rw [List.length_tail, List.length_cons]
      omega
    · simp

theorem length_readHead_le (quote : Option Char) (depth : Nat) (source text : List Char) :
    (readHead quote depth source text).rest.length ≤ text.length := by
  induction text generalizing quote depth source with
  | nil => simp [readHead]
  | cons c rest ih =>
    have converted := length_readConversion_le (String.ofList source.reverse) rest
    unfold readHead
    rw [List.length_cons]
    split
    · exact Nat.le_succ_of_le (ih _ _ _)
    · split
      · exact Nat.le_succ_of_le (ih _ _ _)
      split
      · exact Nat.le_succ_of_le (ih _ _ _)
      split
      · exact Nat.le_succ_of_le (ih _ _ _)
      split
      · exact Nat.le_succ _
      split
      · exact Nat.le_succ_of_le converted
      split
      · exact Nat.le_succ _
      · exact Nat.le_succ_of_le (ih _ _ _)

/-- The pieces of a stretch of text, and what is left of the text. -/
structure Pieces (text : List Char) where
  pieces : List FormatPiece
  rest : List Char
  le : rest.length ≤ text.length

/-- The literal run that ends here, if it is one. -/
def run (reversed : List Char) : List FormatPiece :=
  if reversed.isEmpty then [] else [literal (String.ofList reversed.reverse)]

/-- Put pieces before those of what comes later in a text. -/
def Pieces.after {text later : List Char} (first : List FormatPiece)
    (shorter : later.length ≤ text.length) (p : Pieces later) : Pieces text :=
  ⟨first ++ p.pieces, p.rest, Nat.le_trans p.le shorter⟩

/-- Read pieces to the end of the text or, in a spec, up to the brace that closes it. -/
def readPieces (spec : (text : List Char) → Option (Pieces text)) (inSpec : Bool)
    (reversed text : List Char) : Option (Pieces text) :=
  match text with
  | [] => some ⟨run reversed, [], Nat.le_refl _⟩
  | c :: rest =>
    have tail_le : rest.tail.length ≤ rest.length := by
      rw [List.length_tail]
      omega
    if inSpec && c == '}' then some ⟨run reversed, c :: rest, Nat.le_refl _⟩
    else if !inSpec && (c == '{' || c == '}') && rest.head? == some c then
      (readPieces spec inSpec (c :: reversed) rest.tail).map
        (.after [] (Nat.le_succ_of_le tail_le))
    else if c == '{' then
      let head := readHead none 0 [] rest
      have head_le : head.rest.length ≤ rest.length := length_readHead_le none 0 [] rest
      if head.hasSpec then
        match spec head.rest with
        | none => none
        | some inner =>
          have inner_le : inner.rest.tail.length ≤ rest.length := by
            have le := inner.le
            rw [List.length_tail]
            omega
          (readPieces spec inSpec [] inner.rest.tail).map
            (.after (run reversed ++ [hole head.source head.conversion (some inner.pieces)])
              (Nat.le_succ_of_le inner_le))
      else
        (readPieces spec inSpec [] head.rest).map
          (.after (run reversed ++ [hole head.source head.conversion none])
            (Nat.le_succ_of_le head_le))
    else (readPieces spec inSpec (c :: reversed) rest).map (.after [] (Nat.le_succ _))
termination_by text.length
decreasing_by
  all_goals
    simp only [List.length_cons]
    have _ := length_readHead_le none 0 [] rest
    omega

/-- How deep specs nest. -/
def specLevels : Nat := 2

/-- Read a spec in which specs may nest so deep, itself included. -/
def readSpec : (levels : Nat) → (text : List Char) → Option (Pieces text)
  | 0, _ => none
  | levels + 1, text => readPieces (readSpec levels) true [] text

/-- The pieces of a format string, unless specs nest too deep. -/
def ofText? (text : String) : Option (List FormatPiece) :=
  (readPieces (readSpec specLevels) false [] text.toList).map (·.pieces)

end FormatPiece

end ScoreScript.Script
