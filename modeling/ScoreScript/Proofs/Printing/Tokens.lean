import ScoreScript.Proofs.Printing.Printer
import ScoreScript.Proofs.Script.Expression
import ScoreScript.Proofs.Script.Lines

/-!
The tokens of a written script. Each form of syntax is passed as the tokens of its parts with its
signs between them.
-/

namespace ScoreScript.Script

open Layout Grammar

/-! ### The kinds of tokens -/

def Constant.kinds : Constant → List TokenKind
  | none => [.keyword .noneKw]
  | bool true => [.keyword .trueKw]
  | bool false => [.keyword .falseKw]
  | int n => [.int n.toNat]
  | str text => [.string text .text]
  | ellipsis => [.op .ellipsis]
  | float _ | bytes _ => []

def calleeKinds (isBare : Bool) (kinds : List TokenKind) : List TokenKind :=
  if isBare then kinds else .op .leftParen :: (kinds ++ [.op .rightParen])

mutual

def Expr.kinds : Expr → List TokenKind
  | .constant value _ => value.kinds
  | .name id _ _ => [.name id]
  | .tuple items _ _ => .op .leftParen :: (tupleKinds (kindsAll items) ++ [.op .rightParen])
  | .unary _ operand _ => .op .minus :: operand.kinds
  | .call callee args keywords _ =>
    calleeKinds callee.isBare callee.kinds ++ .op .leftParen ::
      ([TokenKind.op .comma].intercalate (kindsAll args ++ kindsKeywords keywords) ++
        [.op .rightParen])
  | _ => []

def kindsAll : List Expr → List (List TokenKind)
  | [] => []
  | e :: rest => e.kinds :: kindsAll rest

def kindsKeywords : List KeywordArg → List (List TokenKind)
  | [] => []
  | .mk name value _ :: rest => keywordKinds name value.kinds :: kindsKeywords rest

end

theorem kindsAll_eq_map (items : List Expr) : kindsAll items = items.map Expr.kinds := by
  induction items with
  | nil => rfl
  | cons e rest ih => rw [kindsAll, ih, List.map_cons]

theorem kindsKeywords_eq_map (keywords : List KeywordArg) :
    kindsKeywords keywords = keywords.map fun k => keywordKinds k.name k.value.kinds := by
  induction keywords with
  | nil => rfl
  | cons k rest ih =>
    cases k
    rw [kindsKeywords, ih, List.map_cons]
    rfl

def WithItem.kinds (i : WithItem) : List TokenKind :=
  match i.target with
  | none => i.context.kinds
  | some target => i.context.kinds ++ .keyword .asKw :: target.kinds

mutual

def Stmt.kinds : Stmt → List TokenKind
  | .expr value _ => value.kinds ++ [.newline]
  | .pass _ => [.keyword .passKw, .newline]
  | .withStmt items body _ =>
    .keyword .withKw :: ([TokenKind.op .comma].intercalate (items.map (·.kinds)) ++
      .op .colon :: .newline :: .indent :: (bodyKinds body ++ [.dedent]))
  | _ => []

def bodyKinds : List Stmt → List TokenKind
  | [] => []
  | s :: rest => s.kinds ++ bodyKinds rest

end

theorem bodyKinds_eq_flatMap (body : List Stmt) : bodyKinds body = body.flatMap Stmt.kinds := by
  induction body with
  | nil => rfl
  | cons s rest ih => rw [bodyKinds, ih, List.flatMap_cons]

/-! ### Expressions -/

theorem Constant.Printable.isPhrase {value : Constant} (h : value.Printable) :
    IsPhrase value.print value.kinds := by
  cases h with
  | none => exact .word .noneKw
  | bool b =>
    cases b with
    | false => exact .word .falseKw
    | true => exact .word .trueKw
  | int small => exact .number small
  | str text => exact .quote text
  | ellipsis => exact .ellipsis

section

variable {pieces : List (String × List TokenKind)}

theorem isContent_tuple (all : ∀ each ∈ pieces, IsPhrase each.1 each.2) :
    IsContent (tupleText (pieces.map (·.1))) (tupleKinds (pieces.map (·.2))) := by
  match pieces, all with
  | [], _ => exact .empty
  | [only], all => exact .comma (all only List.mem_cons_self)
  | first :: second :: more, all => exact .commas all

theorem isPhrase_callee {isBare : Bool} {text : String} {kinds : List TokenKind}
    (h : IsPhrase text kinds) : IsPhrase (calleeText isBare text) (calleeKinds isBare kinds) := by
  cases isBare with
  | true => exact h
  | false => exact (IsContent.of_phrase h).bracketed rfl

theorem isPhrase_keyword {name : Option String} (free : ∀ id ∈ name, IsFreeName id) {text : String}
    {kinds : List TokenKind} (h : IsPhrase text kinds) :
    IsPhrase (keywordText name text) (keywordKinds name kinds) := by
  cases name with
  | none => exact h.unpack
  | some id => exact h.named (free id rfl).ident (free id rfl).free

end

/-- The items of a list with how they are written. -/
def piecesOf (items : List Expr) : List (String × List TokenKind) :=
  items.map fun e => (e.print, e.kinds)

theorem piecesOf_eq (items : List Expr) :
    (piecesOf items).map (·.1) = printAll items ∧ (piecesOf items).map (·.2) = kindsAll items := by
  rw [printAll_eq_map, kindsAll_eq_map]
  constructor <;> simp [piecesOf, Function.comp_def]

/-- The items of a tuple. -/
theorem isContent_items {items : List Expr} (all : ∀ e ∈ items, IsPhrase e.print e.kinds) :
    IsContent (tupleText (printAll items)) (tupleKinds (kindsAll items)) := by
  have pieces : ∀ each ∈ piecesOf items, IsPhrase each.1 each.2 := List.forall_mem_map.2 all
  have content := isContent_tuple pieces
  rwa [(piecesOf_eq items).1, (piecesOf_eq items).2] at content

/-- The arguments of a call. -/
theorem isContent_arguments {args : List Expr} {keywords : List KeywordArg}
    (positional : ∀ e ∈ args, IsPhrase e.print e.kinds)
    (values : ∀ k ∈ keywords, IsPhrase k.value.print k.value.kinds)
    (names : ∀ k ∈ keywords, ∀ id ∈ k.name, IsFreeName id) :
    IsContent (", ".intercalate (printAll args ++ printKeywords keywords))
      ([TokenKind.op .comma].intercalate (kindsAll args ++ kindsKeywords keywords)) := by
  have pieces : ∀ each ∈ piecesOf args ++ keywords.map fun k =>
      (keywordText k.name k.value.print, keywordKinds k.name k.value.kinds),
      IsPhrase each.1 each.2 :=
    List.forall_mem_append.2 ⟨List.forall_mem_map.2 positional,
      List.forall_mem_map.2 fun k member => isPhrase_keyword (names k member) (values k member)⟩
  have content := IsContent.commas pieces
  rw [List.map_append, List.map_append, (piecesOf_eq args).1, (piecesOf_eq args).2, List.map_map,
    List.map_map] at content
  rw [printKeywords_eq_map, kindsKeywords_eq_map]
  exact content

theorem Expr.Printable.isPhrase {e : Expr} (h : e.Printable) : IsPhrase e.print e.kinds := by
  induction h with
  | constant plain => exact plain.isPhrase
  | name free => exact .name free.ident free.free
  | tuple _ ih => exact (isContent_items ih).bracketed rfl
  | minus _ ih => exact ih.minus
  | call _ _ _ names _ called positional values =>
    exact (isPhrase_callee called).call (isContent_arguments positional values names)

theorem Constant.Printable.passes_end {value : Constant} (h : value.Printable) :
    Passes (utf8 value.print) [] value.kinds := by
  have word (keyword : Keyword) : Passes (utf8 keyword.text) [] [.keyword keyword] := by
    have ident : IsIdent keyword.text := by cases keyword <;> decide
    have known : Keyword.ofText? keyword.text = some keyword := by cases keyword <;> decide
    have token := @isToken_word [] keyword.text ident nofun nofun
    rw [known] at token
    exact .of_token token
  cases h with
  | none => exact word .noneKw
  | bool b =>
    cases b with
    | false => exact word .falseKw
    | true => exact word .trueKw
  | int small => exact .of_token (isToken_number small nofun)
  | str text => exact .of_token (isToken_quote text nofun)
  | ellipsis => exact .of_token isToken_ellipsis

/-- An expression is passed as its tokens at the end of the text as well. -/
theorem Expr.Printable.passes_end {e : Expr} (h : e.Printable) :
    Passes (utf8 e.print) [] e.kinds := by
  induction h with
  | constant plain => exact plain.passes_end
  | name free => exact .of_token (isToken_name free.ident free.free nofun nofun)
  | tuple all _ =>
    exact (isContent_items fun e member => (all e member).isPhrase).passes_brackets []
  | @minus operand span inner ih =>
    obtain ⟨b, more, bytes, start⟩ := inner.isPhrase.opens
    have sign : Passes (utf8 "-") (utf8 operand.print ++ []) [.op .minus] := by
      rw [bytes]
      exact .of_token (isToken_minus (startsPhrase_cases start).2.1 (startsPhrase_cases start).2.2)
    rw [print, utf8_append]
    exact sign.append ih
  | @call callee args keywords span called positional values names distinct _ _ _ =>
    have content := isContent_arguments (fun e member => (positional e member).isPhrase)
      (fun k member => (values k member).isPhrase) names
    have bracket : utf8 ("(" ++ ", ".intercalate (printAll args ++ printKeywords keywords) ++ ")") =
        0x28 :: (utf8 (", ".intercalate (printAll args ++ printKeywords keywords)) ++ [0x29]) := by
      rw [utf8_append, utf8_append]
      rfl
    have head : Passes (utf8 (calleeText callee.isBare callee.print))
        (utf8 ("(" ++ ", ".intercalate (printAll args ++ printKeywords keywords) ++ ")") ++ [])
        (calleeKinds callee.isBare callee.kinds) := by
      rw [bracket]
      exact (isPhrase_callee called.isPhrase).passes 0x28 _ rfl
    rw [print, utf8_append]
    exact head.append (content.passes_brackets [])

theorem Expr.PrintableTarget.isPhrase {t : Expr} (h : t.PrintableTarget) :
    IsPhrase t.print t.kinds := by
  induction h with
  | name free => exact .name free.ident free.free
  | tuple _ ih => exact (isContent_items ih).bracketed rfl

/-! ### Statements -/

theorem WithItem.Printable.isPhrase {i : WithItem} (h : i.Printable) :
    IsPhrase i.print i.kinds := by
  obtain ⟨context, target, span⟩ := i
  cases target with
  | none => exact h.context.isPhrase
  | some target =>
    have place : IsPhrase ("as" ++ " " ++ target.print) (.keyword .asKw :: target.kinds) :=
      (h.target target rfl).isPhrase.afterWord .asKw
    have word : " as " ++ target.print = " " ++ ("as" ++ " " ++ target.print) := by
      rw [← String.append_assoc, ← String.append_assoc]
      rfl
    change IsPhrase (context.print ++ " as " ++ target.print)
      (context.kinds ++ .keyword .asKw :: target.kinds)
    rw [String.append_assoc, word]
    exact h.context.isPhrase.append place.spaced

theorem printBody_eq (depth : Nat) (body : List Stmt) :
    printBody depth body = blockText (fun s depth => s.print depth) depth body := by
  induction body with
  | nil => rfl
  | cons s rest ih => rw [printBody, ih, blockText_cons]

/-- A statement is written as its tokens at any depth of blocks. -/
theorem Stmt.Printable.isLines {s : Stmt} (h : s.Printable) :
    IsLines (fun depth => s.print depth) s.kinds := by
  induction h with
  | expr inner => exact .of_phrase inner.isPhrase
  | pass => exact .of_phrase (.word .passKw)
  | @withStmt items body span some_item some_statement each _ ih =>
    have list : IsPhrase (", ".intercalate (items.map (·.print)))
        ([TokenKind.op .comma].intercalate (items.map (·.kinds))) := by
      obtain ⟨first, more, rfl⟩ := List.exists_cons_of_ne_nil some_item
      have pieces : ∀ piece ∈ (first :: more).map fun i => (i.print, i.kinds),
          IsPhrase piece.1 piece.2 :=
        List.forall_mem_map.2 fun i member => (each i member).isPhrase
      simpa [Function.comp_def] using IsPhrase.commas _ _ pieces
    have head : IsPhrase ("with " ++ ", ".intercalate (items.map (·.print)))
        (.keyword .withKw :: [TokenKind.op .comma].intercalate (items.map (·.kinds))) :=
      list.afterWord .withKw
    simp only [print, kinds, printBody_eq, bodyKinds_eq_flatMap]
    exact .of_block head some_statement ih

/-- The tokens of a written script. -/
theorem Module.tokens_print {m : Module} (h : m.Printable) :
    ∃ tokens, Script.tokens (utf8 m.print) = .ok tokens ∧
      tokens.map (·.kind) = m.body.flatMap Stmt.kinds ++ [.eof] := by
  rw [Module.print, printBody_eq]
  exact tokens_blockText fun s member => (h s member).isLines

end ScoreScript.Script
