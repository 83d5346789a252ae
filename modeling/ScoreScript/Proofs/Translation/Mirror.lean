import ScoreScript.Proofs.Markup.Escape
import ScoreScript.Proofs.Script.Expression
import ScoreScript.Proofs.Script.Lines
import ScoreScript.Proofs.Script.Statement

/-!
The script that rebuilds a document, as tokens and as a tree. Names come from the tags and attributes
of the document, texts and values are literals, and a block stands for the children: no text of the
document is ever read as anything but a literal. The syntax tree mirrors the document: an element
without children is a call by itself, one with children is a block over its call, and texts and
values are string constants in the calls (`Element.Mirrors`). The tokens are read as one statement,
which is that tree.
-/

namespace ScoreScript

open Script Script.Layout Naming

/-- The type and the fields of an element are names of a script, none of them reserved, no field
twice. -/
structure Nameable (e : Element) : Prop where
  type : IsIdent (typeName e.tag)
  typeFree : Keyword.ofText? (typeName e.tag) = none
  fields : ∀ entry ∈ e.attributes, IsIdent (fieldName entry.1)
  fieldsFree : ∀ entry ∈ e.attributes, Keyword.ofText? (fieldName entry.1) = none
  distinct : (e.attributes.map fun entry => fieldName entry.1).Nodup

namespace Element

/-! ### The kinds of tokens -/

def textKinds (text : String) : List TokenKind :=
  [.string text .text]

def fieldKinds (entry : String × String) : List TokenKind :=
  [.name (fieldName entry.1), .op .assign, .string entry.2 .text]

/-- The arguments of the call that makes an element. -/
def argumentKinds (e : Element) : List (List TokenKind) :=
  e.text.toList.map textKinds ++ e.attributes.map fieldKinds

def callKinds (e : Element) : List TokenKind :=
  .name (typeName e.tag) :: .op .leftParen ::
    ([TokenKind.op .comma].intercalate e.argumentKinds ++ [.op .rightParen])

mutual

/-- The tokens of the statement that makes an element. -/
def statementKinds : Element → List TokenKind
  | ⟨tag, attributes, children, text, checked, settled⟩ =>
    let call := callKinds ⟨tag, attributes, children, text, checked, settled⟩
    match children with
    | [] => call ++ [.newline]
    | first :: rest =>
      .keyword .withKw ::
        (call ++ [.op .colon, .newline, .indent] ++ blockKinds (first :: rest) ++ [.dedent])

def blockKinds : List Element → List TokenKind
  | [] => []
  | e :: rest => e.statementKinds ++ blockKinds rest

end

theorem statementKinds_leaf {e : Element} (none : e.children = []) :
    e.statementKinds = e.callKinds ++ [.newline] := by
  obtain ⟨tag, attributes, children, text, checked, settled⟩ := e
  subst none
  rfl

theorem statementKinds_block {e : Element} (some_child : e.children ≠ []) :
    e.statementKinds = .keyword .withKw ::
      (e.callKinds ++ [.op .colon, .newline, .indent] ++ blockKinds e.children ++ [.dedent]) := by
  obtain ⟨tag, attributes, children, text, checked, settled⟩ := e
  cases children with
  | nil => exact absurd rfl some_child
  | cons first rest => rfl

/-! ### Calls -/

/-- The arguments of the call with the kinds of their tokens. -/
def pieces (e : Element) : List (String × List TokenKind) :=
  e.text.toList.map (fun text => (quote text, textKinds text)) ++
    e.attributes.map fun entry => (fieldName entry.1 ++ "=" ++ quote entry.2, fieldKinds entry)

theorem toCall_eq (e : Element) :
    e.toCall = typeName e.tag ++ ("(" ++ ", ".intercalate (e.pieces.map (·.1)) ++ ")") := by
  simp [toCall, pieces, String.append_assoc, Function.comp_def]

theorem argumentKinds_eq (e : Element) : e.argumentKinds = e.pieces.map (·.2) := by
  simp [argumentKinds, pieces, Function.comp_def]

theorem isPhrase_pieces {e : Element} (named : Nameable e) :
    ∀ piece ∈ e.pieces, IsPhrase piece.1 piece.2 := by
  intro piece member
  rcases List.mem_append.1 member with alone | field
  · obtain ⟨text, -, rfl⟩ := List.mem_map.1 alone
    exact .quote text
  · obtain ⟨entry, inside, rfl⟩ := List.mem_map.1 field
    exact IsPhrase.named (named.fields entry inside) (named.fieldsFree entry inside)
      (.quote entry.2)

theorem isPhrase_toCall {e : Element} (named : Nameable e) : IsPhrase e.toCall e.callKinds := by
  rw [toCall_eq, callKinds, argumentKinds_eq]
  exact IsPhrase.call (.name named.type named.typeFree) (.commas (isPhrase_pieces named))

/-! ### Statements -/

/-- What is written for an element behind the indentation of its first line. -/
def line (e : Element) (depth : Nat) : String :=
  if e.children.isEmpty then e.toCall ++ "\n"
  else "with " ++ e.toCall ++ ":\n" ++ String.join (toBlock (depth + 1) e.children)

theorem join_toStatement (depth : Nat) (e : Element) :
    String.join (e.toStatement depth) = blockIndent depth ++ e.line depth := by
  obtain ⟨tag, attributes, children, text, checked, settled⟩ := e
  cases children with
  | nil => simp [toStatement, line, String.append_assoc]
  | cons first rest => simp [toStatement, line, String.append_assoc]

theorem join_toBlock (depth : Nat) (children : List Element) :
    String.join (toBlock depth children) = blockText line depth children := by
  induction children with
  | nil => rfl
  | cons e rest ih => rw [toBlock, String.join_append, join_toStatement, ih, blockText_cons]

theorem line_leaf {e : Element} (none : e.children = []) : e.line = fun _ => e.toCall ++ "\n" := by
  funext depth
  rw [line, none, List.isEmpty_nil, if_pos rfl]

theorem line_block {e : Element} (some_child : e.children ≠ []) :
    e.line = fun depth =>
      "with " ++ e.toCall ++ ":\n" ++ blockText line (depth + 1) e.children := by
  funext depth
  rw [line, if_neg (by simpa using some_child), join_toBlock]

theorem blockKinds_eq_flatMap (children : List Element) :
    blockKinds children = children.flatMap statementKinds := by
  induction children with
  | nil => rfl
  | cons e rest ih => rw [blockKinds, List.flatMap_cons, ih]

/-- A statement without children is one line, one with children is a line and the block below. -/
theorem isLines {e : Element} (named : e.Everywhere Nameable) :
    IsLines e.line e.statementKinds := by
  induction e using Element.induction with
  | step e ih =>
    obtain ⟨here, inner⟩ := everywhere_iff.1 named
    have call := isPhrase_toCall here
    by_cases none : e.children = []
    · rw [line_leaf none, statementKinds_leaf none]
      exact .of_phrase call
    · have head : IsPhrase ("with " ++ e.toCall) (.keyword .withKw :: e.callKinds) :=
        call.afterWord .withKw
      have block := IsLines.of_block head none fun c member => ih c member (inner c member)
      rw [line_block none, statementKinds_block none, blockKinds_eq_flatMap]
      simpa using block

/-- The tokens of a translated document. -/
theorem tokens_toScript {e : Element} (named : e.Everywhere Nameable) :
    ∃ tokens, Script.tokens (utf8 e.toScript) = .ok tokens ∧
      tokens.map (·.kind) = e.statementKinds ++ [.eof] := by
  have alone := tokens_blockText (List.forall_mem_singleton.2 (isLines named))
  have text : e.toScript = blockText line 0 [e] := by
    rw [toScript, join_toStatement, blockText_cons]
    exact String.append_empty.symm
  rwa [← text, List.flatMap_singleton] at alone

end Element

end ScoreScript

namespace ScoreScript.Element

open Script Script.Grammar Naming

/-- The named argument for an attribute. -/
def IsField (entry : String × String) (arg : KeywordArg) : Prop :=
  arg.name = some (fieldName entry.1) ∧ IsText entry.2 arg.value

/-- The call that makes an element: its type, its text, its attributes in order. -/
def IsCall (e : Element) (call : Expr) : Prop :=
  ∃ place args keywords span,
    call = .call (.name (typeName e.tag) .load place) args keywords span ∧
      List.Forall₂ IsText e.text.toList args ∧ List.Forall₂ IsField e.attributes keywords

/-- The statement is the tree of the element, wherever its parts stand. -/
inductive Mirrors : Element → Stmt → Prop where
  | leaf {e : Element} {call : Expr} {span : Span} (alone : e.children = [])
      (same : IsCall e call) : Mirrors e (.expr call span)
  | block {e : Element} {call : Expr} {body : List Stmt} {item span : Span}
      (inner : e.children ≠ []) (same : IsCall e call)
      (children : List.Forall₂ Mirrors e.children body) :
      Mirrors e (.withStmt [⟨call, none, item⟩] body span)

/-- The call of an element is read as such, wherever an operand may stand. -/
theorem isCallee_callKinds {e : Element} (named : Nameable e)
    {hole : Nat → String → Except Error Expr} : IsCallee hole e.callKinds (IsCall e) := by
  have text (value : String) : IsOperand hole (textKinds value) (IsText value) :=
    (IsCallee.text value).operand
  have distinct : (e.attributes.filterMap fun entry => some (fieldName entry.1)).Nodup := by
    rw [List.filterMap_eq_map']
    exact named.distinct
  have texts : ∀ value ∈ e.text.toList, IsOperand hole (textKinds value) (IsText value) :=
    fun value _ => text value
  have fields : ∀ entry ∈ e.attributes, IsOperand hole (textKinds entry.2) (IsText entry.2) :=
    fun entry _ => text entry.2
  refine ((IsCallee.name (typeName e.tag)).call texts fields distinct).mono ?_
  rintro _ ⟨_, args, keywords, span, rfl, ⟨place, rfl⟩, texts, fields⟩
  exact ⟨place, args, keywords, span, rfl, texts, fields⟩

end ScoreScript.Element

namespace ScoreScript.Element

open Script Script.Grammar Naming

/-- The statement of an element is read as its tree. -/
theorem isStatement_mirrors {e : Element} (named : e.Everywhere Nameable)
    {hole : Nat → String → Except Error Expr} :
    IsStatement hole e.statementKinds (Mirrors e) := by
  induction e using Element.induction with
  | step e ih =>
    obtain ⟨here, inner⟩ := everywhere_iff.1 named
    have call : IsOperand hole e.callKinds (IsCall e) := (isCallee_callKinds here).operand
    by_cases none : e.children = []
    · rw [statementKinds_leaf none]
      refine (IsStatement.expr call).mono ?_
      rintro _ ⟨call, span, rfl, same⟩
      exact .leaf none same
    · have item : ∀ c ∈ [e], IsItem hole c.callKinds
          fun i => ∃ call span, i = ⟨call, Option.none, span⟩ ∧ IsCall c call :=
        List.forall_mem_singleton.2 (IsItem.plain call)
      have block := IsStatement.withStmt (List.cons_ne_nil e []) item
        fun c member => ih c member (inner c member)
      rw [statementKinds_block none, blockKinds_eq_flatMap]
      rw [List.map_singleton, List.intercalate_singleton] at block
      simp only [List.append_assoc, List.cons_append, List.nil_append]
      refine block.mono ?_
      rintro _ ⟨_, body, span, rfl, items, children⟩
      cases items with
      | cons one noMore =>
        obtain ⟨call, item, rfl, same⟩ := one
        cases noMore
        exact .block none same children

/-- The script that rebuilds a document is one statement, the tree of the document. -/
theorem ofText_toScript {e : Element} (named : e.Everywhere Nameable) :
    ∃ stmt, Module.ofText .unlimited e.toScript = .ok ⟨[stmt]⟩ ∧ Mirrors e stmt := by
  obtain ⟨tokens, lexed, kinds⟩ := tokens_toScript named
  rw [← List.flatMap_singleton statementKinds e] at kinds
  obtain ⟨⟨body⟩, read, same⟩ := Module.ofText_of_statements lexed kinds fun hole =>
    List.forall_mem_singleton.2 (isStatement_mirrors named)
  cases same with
  | cons one noMore =>
    cases noMore
    exact ⟨_, read, one⟩

end ScoreScript.Element
