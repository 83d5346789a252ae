import ScoreScript.Proofs.Script.Spelling
import ScoreScript.Proofs.Tokens.Step

/-!
How the tokens that are read are written. A name and a reserved word are passed as they are
spelled, and so is an operator, for which the longest one that stands there is taken
(`spelt_of_readToken`).
-/

namespace ScoreScript.Script

open Cursor Layout

/-- How a token is written before the bytes that follow it. -/
inductive Spelt : TokenKind → List UInt8 → List UInt8 → Prop where
  | name {id : String} {rest : List UInt8} : Spelt (.name id) (utf8 id) rest
  | keyword {word : Keyword} {rest : List UInt8} : Spelt (.keyword word) (utf8 word.text) rest
  /-- No longer operator stands there. -/
  | op {sign : Operator} {rest : List UInt8}
    (longest : ∀ other : Operator, utf8 other.text <+: utf8 sign.text ++ rest →
      (utf8 other.text).length ≤ (utf8 sign.text).length) :
    Spelt (.op sign) (utf8 sign.text) rest
  | literal {kind : TokenKind} {bytes rest : List UInt8} (literal : kind.isLiteral = true) :
    Spelt kind bytes rest

theorem Spelt.isSolid {kind : TokenKind} {bytes rest : List UInt8} (spelt : Spelt kind bytes rest) :
    kind.isSolid = true := by
  cases spelt with
  | name => rfl
  | keyword => rfl
  | op longest => rfl
  | literal literal =>
    cases kind with
    | int | float | string => rfl
    | _ => cases literal

namespace Operator

theorem map_toUInt8_text (op : Operator) : op.text.toList.map Char.toUInt8 = utf8 op.text := by
  cases op <;> rfl

theorem length_utf8_text (op : Operator) : (utf8 op.text).length = op.text.length := by
  rw [← map_toUInt8_text, List.length_map, String.length_toList]

/-- Longer operators are tried first. -/
theorem pairwise_all : all.Pairwise fun a b => b.text.length ≤ a.text.length := by
  decide

end Operator

namespace Layout

variable {c after : Cursor} {kind : TokenKind}

theorem startsWith_text_iff {op : Operator} :
    c.startsWith op.text = true ↔ utf8 op.text <+: c.rest := by
  rw [startsWith, Operator.map_toUInt8_text, List.isPrefixOf_iff_prefix]

theorem spelt_of_readOperator {b : UInt8} (read : readOperator c b = .ok (kind, after)) :
    ∃ bytes, c.Crosses bytes after ∧ Spelt kind bytes after.rest := by
  unfold readOperator at read
  split at read <;> cases read
  rename_i sign found
  obtain ⟨here, longer, shorter, split, none⟩ := List.find?_eq_some_iff_append.1 found
  rw [startsWith_text_iff] at here
  have crosses := Crosses.of_leads here
  rw [← Operator.length_utf8_text]
  refine ⟨_, crosses, .op fun other stands => ?_⟩
  rw [← crosses.rest] at stands
  rw [Operator.length_utf8_text, Operator.length_utf8_text]
  have ordered := Operator.pairwise_all
  rw [split, List.pairwise_append, List.pairwise_cons] at ordered
  have listed := other.mem_all
  rw [split, List.mem_append, List.mem_cons] at listed
  rcases listed with before | rfl | behind
  · have absent := none other before
    rw [startsWith_text_iff.2 stands] at absent
    cases absent
  · exact Nat.le_refl _
  · exact ordered.2.1.1 other behind

theorem spelt_of_readWord (read : readWord c = .ok (kind, after)) :
    ∃ bytes, c.Crosses bytes after ∧ Spelt kind bytes after.rest := by
  have crosses := Crosses.of_skipWhile c Literal.isIdentByte
  unfold readWord at read
  dsimp only at read
  split at read
  · cases read
  · rename_i word spelled
    have written := utf8_of_ofUtf8? spelled
    rw [upTo_skipWhile] at written
    rw [← written] at crosses
    split at read
    · obtain ⟨more, further⟩ := Crosses.of_movesTo (Literal.readString_moves read)
      exact ⟨_, crosses.trans further, .literal (Literal.isLiteral_of_readString read)⟩
    · rename_i keyword noForm same
      cases read
      have text : keyword.text = word := by
        simpa using List.find?_some same
      exact ⟨_, crosses, text ▸ .keyword⟩
    · cases read
      exact ⟨_, crosses, .name⟩

/-- What is passed with a token is how it is written. -/
theorem spelt_of_readToken {b : UInt8} (read : readToken c b = .ok (kind, after)) :
    ∃ bytes, c.Crosses bytes after ∧ Spelt kind bytes after.rest := by
  have literal (written : kind.isLiteral = true) :
      ∃ bytes, c.Crosses bytes after ∧ Spelt kind bytes after.rest := by
    obtain ⟨bytes, crosses⟩ := Crosses.of_movesTo (readToken_moves read)
    exact ⟨bytes, crosses, .literal written⟩
  unfold readToken at read
  split at read
  · exact literal (Literal.isLiteral_of_readString read)
  · split at read
    · exact literal (Literal.isLiteral_of_readNumber read)
    · split at read
      · exact spelt_of_readWord read
      · exact spelt_of_readOperator read

end Layout

end ScoreScript.Script
