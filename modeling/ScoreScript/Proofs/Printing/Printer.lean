import ScoreScript.Proofs.Script.Spelling
import ScoreScript.Script.Syntax
import ScoreScript.Translation

/-!
Declarative scripts as trees, and how a tree is written: one statement a line, four columns further
to the right in each block, tuples in brackets, and brackets around whatever is called unless it is
a name or a call.
-/

namespace ScoreScript.Script

/-! ### The trees that are written -/

/-- A name that is not a reserved word. -/
structure IsFreeName (id : String) : Prop where
  ident : IsIdent id
  free : Keyword.ofText? id = none

/-- The values of literals; whole numbers are not negative. -/
inductive Constant.Printable : Constant → Prop where
  | none : Printable .none
  | bool (b : Bool) : Printable (.bool b)
  | int {n : Nat} (small : n < twoTo 63) : Printable (.int n)
  | str (text : String) : Printable (.str text)
  | ellipsis : Printable .ellipsis

/-- Literals, names, tuples, unary minus, and calls in which no argument is named twice. -/
inductive Expr.Printable : Expr → Prop where
  | constant {value : Constant} {span : Span} (plain : value.Printable) :
      Printable (.constant value span)
  | name {id : String} {span : Span} (free : IsFreeName id) : Printable (.name id .load span)
  | tuple {items : List Expr} {span : Span} (all : ∀ e ∈ items, Printable e) :
      Printable (.tuple items .load span)
  | minus {operand : Expr} {span : Span} (inner : Printable operand) :
      Printable (.unary .minus operand span)
  | call {callee : Expr} {args : List Expr} {keywords : List KeywordArg} {span : Span}
      (called : Printable callee) (positional : ∀ e ∈ args, Printable e)
      (values : ∀ k ∈ keywords, Printable k.value)
      (names : ∀ k ∈ keywords, ∀ id ∈ k.name, IsFreeName id)
      (distinct : (keywords.filterMap (·.name)).Nodup) :
      Printable (.call callee args keywords span)

/-- Names and tuples of targets, which are stored to. -/
inductive Expr.PrintableTarget : Expr → Prop where
  | name {id : String} {span : Span} (free : IsFreeName id) :
      PrintableTarget (.name id .store span)
  | tuple {items : List Expr} {span : Span} (all : ∀ e ∈ items, PrintableTarget e) :
      PrintableTarget (.tuple items .store span)

structure WithItem.Printable (i : WithItem) : Prop where
  context : i.context.Printable
  target : ∀ t ∈ i.target, t.PrintableTarget

/-- Expressions, `pass`, and `with` statements with an item and a statement at least. -/
inductive Stmt.Printable : Stmt → Prop where
  | expr {value : Expr} {span : Span} (inner : value.Printable) : Printable (.expr value span)
  | pass {span : Span} : Printable (.pass span)
  | withStmt {items : List WithItem} {body : List Stmt} {span : Span} (some_item : items ≠ [])
      (some_statement : body ≠ []) (each : ∀ i ∈ items, i.Printable)
      (all : ∀ s ∈ body, Printable s) : Printable (.withStmt items body span)

def Module.Printable (m : Module) : Prop :=
  ∀ s ∈ m.body, s.Printable

/-! ### Expressions -/

/-- The literal of a value; values that are not written have none. -/
def Constant.print : Constant → String
  | none => "None"
  | bool true => "True"
  | bool false => "False"
  | int n => toString n
  | str text => quote text
  | ellipsis => "..."
  | float _ | bytes _ => ""

/-- What stands between the brackets of a tuple; a single item has a comma behind it. -/
def tupleText : List String → String
  | [only] => only ++ ","
  | items => ", ".intercalate items

/-- A callee, in brackets unless it is a name or a call. -/
def calleeText (isBare : Bool) (text : String) : String :=
  if isBare then text else "(" ++ text ++ ")"

/-- An argument with a name, or a mapping of arguments. -/
def keywordText (name : Option String) (value : String) : String :=
  match name with
  | some id => id ++ "=" ++ value
  | none => "**" ++ value

def Expr.isBare : Expr → Bool
  | .name .. | .call .. => true
  | _ => false

mutual

/-- An expression as it is written; forms that are not written have no text. -/
def Expr.print : Expr → String
  | .constant value _ => value.print
  | .name id _ _ => id
  | .tuple items _ _ => "(" ++ tupleText (printAll items) ++ ")"
  | .unary _ operand _ => "-" ++ operand.print
  | .call callee args keywords _ =>
    calleeText callee.isBare callee.print ++
      ("(" ++ ", ".intercalate (printAll args ++ printKeywords keywords) ++ ")")
  | _ => ""

def printAll : List Expr → List String
  | [] => []
  | e :: rest => e.print :: printAll rest

def printKeywords : List KeywordArg → List String
  | [] => []
  | .mk name value _ :: rest => keywordText name value.print :: printKeywords rest

end

theorem printAll_eq_map (items : List Expr) : printAll items = items.map Expr.print := by
  induction items with
  | nil => rfl
  | cons e rest ih => rw [printAll, ih, List.map_cons]

theorem printKeywords_eq_map (keywords : List KeywordArg) :
    printKeywords keywords = keywords.map fun k => keywordText k.name k.value.print := by
  induction keywords with
  | nil => rfl
  | cons k rest ih =>
    cases k
    rw [printKeywords, ih, List.map_cons]
    rfl

/-! ### Statements -/

/-- An item of a `with` statement, with what its value is stored in. -/
def WithItem.print (i : WithItem) : String :=
  match i.target with
  | none => i.context.print
  | some target => i.context.print ++ " as " ++ target.print

mutual

/-- A statement at a depth of blocks, without the indentation of its first line. -/
def Stmt.print (depth : Nat) : Stmt → String
  | .expr value _ => value.print ++ "\n"
  | .pass _ => "pass\n"
  | .withStmt items body _ =>
    "with " ++ ", ".intercalate (items.map (·.print)) ++ ":\n" ++ printBody (depth + 1) body
  | _ => ""

def printBody (depth : Nat) : List Stmt → String
  | [] => ""
  | s :: rest => Element.blockIndent depth ++ s.print depth ++ printBody depth rest

end

/-- The text of a script. -/
def Module.print (m : Module) : String :=
  printBody 0 m.body

/-! ### Trees without places -/

mutual

/-- The expression with nothing to tell where it stands, of the forms that are written. -/
def Expr.unplaced : Expr → Expr
  | .constant value _ => .constant value .nowhere
  | .name id use _ => .name id use .nowhere
  | .tuple items use _ => .tuple (unplacedAll items) use .nowhere
  | .unary op operand _ => .unary op operand.unplaced .nowhere
  | .call callee args keywords _ =>
    .call callee.unplaced (unplacedAll args) (unplacedKeywords keywords) .nowhere
  | e => e

def unplacedAll : List Expr → List Expr
  | [] => []
  | e :: rest => e.unplaced :: unplacedAll rest

def unplacedKeywords : List KeywordArg → List KeywordArg
  | [] => []
  | .mk name value _ :: rest => .mk name value.unplaced .nowhere :: unplacedKeywords rest

end

def KeywordArg.unplaced (k : KeywordArg) : KeywordArg :=
  .mk k.name k.value.unplaced .nowhere

theorem unplacedAll_eq_map (items : List Expr) : unplacedAll items = items.map Expr.unplaced := by
  induction items with
  | nil => rfl
  | cons e rest ih => rw [unplacedAll, ih, List.map_cons]

theorem unplacedKeywords_eq_map (keywords : List KeywordArg) :
    unplacedKeywords keywords = keywords.map KeywordArg.unplaced := by
  induction keywords with
  | nil => rfl
  | cons k rest ih =>
    cases k
    rw [unplacedKeywords, ih, List.map_cons]
    rfl

def WithItem.unplaced (i : WithItem) : WithItem :=
  ⟨i.context.unplaced, i.target.map Expr.unplaced, .nowhere⟩

@[simp] theorem WithItem.unplaced_context (i : WithItem) :
    i.unplaced.context = i.context.unplaced := rfl

@[simp] theorem WithItem.unplaced_target (i : WithItem) :
    i.unplaced.target = i.target.map Expr.unplaced := rfl

mutual

def Stmt.unplaced : Stmt → Stmt
  | .expr value _ => .expr value.unplaced .nowhere
  | .pass _ => .pass .nowhere
  | .withStmt items body _ => .withStmt (items.map (·.unplaced)) (unplacedBody body) .nowhere
  | s => s

def unplacedBody : List Stmt → List Stmt
  | [] => []
  | s :: rest => s.unplaced :: unplacedBody rest

end

theorem unplacedBody_eq_map (body : List Stmt) : unplacedBody body = body.map Stmt.unplaced := by
  induction body with
  | nil => rfl
  | cons s rest ih => rw [unplacedBody, ih, List.map_cons]

def Module.unplaced (m : Module) : Module :=
  ⟨m.body.map Stmt.unplaced⟩

end ScoreScript.Script
