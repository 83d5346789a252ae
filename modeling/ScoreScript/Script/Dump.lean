import ScoreScript.Decimal.Double
import ScoreScript.Script.Syntax
import ScoreScript.Text.Quoted

/-!
Syntax trees written out with all their fields, for people who look at a script. A node is
shown as a record or a tuple with a name, one field a line, four spaces a level.
-/

namespace ScoreScript.Script

/-- A value to be shown: a word, named fields, items behind a name, or a list. -/
inductive Shown where
  | word (text : String)
  | record (name : String) (fields : List (String × Shown))
  | items (name : String) (values : List Shown)
  | list (values : List Shown)

namespace Shown

def margin (depth : Nat) : String :=
  String.ofList (List.replicate (4 * depth) ' ')

mutual

/-- The pieces of the text of a value that begins at some depth. -/
def pieces (depth : Nat) : Shown → List String
  | word text => [text]
  | record name fields =>
    (name ++ " \x7b\n") :: (fieldPieces (depth + 1) fields ++ [margin depth, "\x7d"])
  | items name values =>
    (name ++ "(\n") :: (itemPieces (depth + 1) values ++ [margin depth, ")"])
  | list [] => ["[]"]
  | list (first :: rest) =>
    "[\n" :: (itemPieces (depth + 1) (first :: rest) ++ [margin depth, "]"])

def itemPieces (depth : Nat) : List Shown → List String
  | [] => []
  | v :: rest => margin depth :: (pieces depth v ++ ",\n" :: itemPieces depth rest)

def fieldPieces (depth : Nat) : List (String × Shown) → List String
  | [] => []
  | (name, v) :: rest =>
    margin depth :: name :: ": " :: (pieces depth v ++ ",\n" :: fieldPieces depth rest)

end

def text (v : Shown) : String :=
  String.join (v.pieces 0)

def optional : Option Shown → Shown
  | none => word "None"
  | some v => items "Some" [v]

def nat (n : Nat) : Shown :=
  word (toString n)

def string (s : String) : Shown :=
  word (quoted s)

/-- A double with a point or an exponent: `4.0`, `1e16`, `2.5e-7`. -/
def floatText (x : Float) : String :=
  if x.isNaN then "NaN"
  else
    let sign := if Double.isNegative x then "-" else ""
    if x.isInf then sign ++ "inf"
    else
      let d := Decimal.ofFloat x
      if d.coefficient = 0 ∨ (-4 ≤ d.leading ∧ d.leading < 16) then
        let plain := d.positional
        sign ++ String.ofList (if plain.contains '.' then plain else plain ++ ['.', '0'])
      else sign ++ String.ofList d.significand ++ "e" ++ toString d.leading

def pos (p : Pos) : Shown :=
  record "Pos" [("offset", nat p.offset), ("line", nat p.line), ("col", nat p.col)]

def span (s : Span) : Shown :=
  record "Span" [("start", pos s.start), ("end", pos s.stop)]

end Shown

open Shown (word record items list optional)

def Use.shown : Use → Shown
  | load => word "Load"
  | store => word "Store"
  | del => word "Del"

def UnaryOperator.shown : UnaryOperator → Shown
  | not => word "Not"
  | invert => word "Invert"
  | plus => word "Plus"
  | minus => word "Minus"

def BinaryOperator.shown : BinaryOperator → Shown
  | add => word "Add"
  | sub => word "Sub"
  | mult => word "Mult"
  | matMult => word "MatMult"
  | div => word "Div"
  | floorDiv => word "FloorDiv"
  | mod => word "Mod"
  | pow => word "Pow"
  | lShift => word "LShift"
  | rShift => word "RShift"
  | bitOr => word "BitOr"
  | bitXor => word "BitXor"
  | bitAnd => word "BitAnd"

def BooleanOperator.shown : BooleanOperator → Shown
  | and => word "And"
  | or => word "Or"

def CompareOperator.shown : CompareOperator → Shown
  | equal => word "Eq"
  | notEqual => word "NotEq"
  | less => word "Lt"
  | lessEq => word "LtE"
  | greater => word "Gt"
  | greaterEq => word "GtE"
  | is => word "Is"
  | isNot => word "IsNot"
  | isIn => word "In"
  | notIn => word "NotIn"

def Constant.shown : Constant → Shown
  | none => word "None"
  | bool b => items "Bool" [word (if b then "true" else "false")]
  | int n => items "Int" [word (toString n)]
  | float x => items "Float" [word (Shown.floatText x)]
  | str s => items "Str" [.string s]
  | bytes bs => items "Bytes" [list (bs.map fun b => .nat b.toNat)]
  | ellipsis => word "Ellipsis"

/-- An expression or statement: what it is, and where it stands. -/
def node (name : String) (kind : Shown) (span : Span) : Shown :=
  record name [("kind", kind), ("span", .span span)]

def exprNode (kind : Shown) (span : Span) : Shown :=
  node "Expr" kind span

mutual

def Expr.shown : Expr → Shown
  | .constant value span => exprNode (items "Constant" [value.shown]) span
  | .name id use span =>
    exprNode (record "Name" [("id", .string id), ("ctx", use.shown)]) span
  | .tuple elts use span =>
    exprNode (record "Tuple" [("elts", list (shownAll elts)), ("ctx", use.shown)]) span
  | .list elts use span =>
    exprNode (record "List" [("elts", list (shownAll elts)), ("ctx", use.shown)]) span
  | .set elts span => exprNode (items "Set" [list (shownAll elts)]) span
  | .dict entries span =>
    exprNode
      (record "Dict" [("keys", list (shownKeys entries)), ("values", list (shownValues entries))])
      span
  | .call callee args keywords span =>
    exprNode
      (record "Call"
        [("func", callee.shown), ("args", list (shownAll args)),
          ("keywords", list (shownKeywords keywords))])
      span
  | .member owner field use span =>
    exprNode
      (record "Attribute"
        [("value", owner.shown), ("attr", .string field), ("ctx", use.shown)])
      span
  | .subscript owner index use span =>
    exprNode
      (record "Subscript"
        [("value", owner.shown), ("slice", index.shown), ("ctx", use.shown)])
      span
  | .slice lower upper step span =>
    exprNode
      (record "Slice"
        [("lower", shownOpt lower), ("upper", shownOpt upper), ("step", shownOpt step)])
      span
  | .starred value use span =>
    exprNode (record "Starred" [("value", value.shown), ("ctx", use.shown)]) span
  | .unary op operand span =>
    exprNode (record "UnaryOp" [("op", op.shown), ("operand", operand.shown)]) span
  | .binary left op right span =>
    exprNode
      (record "BinOp" [("left", left.shown), ("op", op.shown), ("right", right.shown)]) span
  | .boolean op operands span =>
    exprNode (record "BoolOp" [("op", op.shown), ("values", list (shownAll operands))]) span
  | .compare left rest span =>
    exprNode
      (record "Compare"
        [("left", left.shown), ("ops", list (rest.map fun (.mk op _) => op.shown)),
          ("comparators", list (shownOperands rest))])
      span
  | .lambda params body span =>
    exprNode (record "Lambda" [("params", params.shown), ("body", body.shown)]) span
  | .conditional test body other span =>
    exprNode
      (record "IfExp" [("test", test.shown), ("body", body.shown), ("orelse", other.shown)])
      span
  | .named target value span =>
    exprNode (record "NamedExpr" [("target", target.shown), ("value", value.shown)]) span
  | .listComp item generators span =>
    exprNode
      (record "ListComp"
        [("elt", item.shown), ("generators", list (shownGenerators generators))])
      span
  | .setComp item generators span =>
    exprNode
      (record "SetComp"
        [("elt", item.shown), ("generators", list (shownGenerators generators))])
      span
  | .dictComp key value generators span =>
    exprNode
      (record "DictComp"
        [("key", key.shown), ("value", value.shown),
          ("generators", list (shownGenerators generators))])
      span
  | .generator item generators span =>
    exprNode
      (record "GeneratorExp"
        [("elt", item.shown), ("generators", list (shownGenerators generators))])
      span
  | .joined parts span => exprNode (items "JoinedStr" [list (shownAll parts)]) span
  | .formatted value conversion spec span =>
    exprNode
      (record "FormattedValue"
        [("value", value.shown),
          ("conversion", optional (conversion.map fun c => word (quotedLetter c))),
          ("format_spec", shownOpt spec)])
      span
  | .await value span => exprNode (items "Await" [value.shown]) span
  | .yield value span => exprNode (items "Yield" [shownOpt value]) span
  | .yieldFrom value span => exprNode (items "YieldFrom" [value.shown]) span

def shownAll : List Expr → List Shown
  | [] => []
  | e :: rest => e.shown :: shownAll rest

def shownOpt : Option Expr → Shown
  | none => optional none
  | some e => optional (some e.shown)

def shownKeys : List DictEntry → List Shown
  | [] => []
  | .pair key _ :: rest => optional (some key.shown) :: shownKeys rest
  | .unpack _ :: rest => optional none :: shownKeys rest

def shownValues : List DictEntry → List Shown
  | [] => []
  | .pair _ value :: rest => value.shown :: shownValues rest
  | .unpack mapping :: rest => mapping.shown :: shownValues rest

def shownKeywords : List KeywordArg → List Shown
  | [] => []
  | .mk name value span :: rest =>
    record "Keyword"
        [("arg", optional (name.map Shown.string)), ("value", value.shown),
          ("span", .span span)] ::
      shownKeywords rest

def shownOperands : List Comparison → List Shown
  | [] => []
  | .mk _ operand :: rest => operand.shown :: shownOperands rest

def shownGenerators : List Comprehension → List Shown
  | [] => []
  | .mk target source conditions span :: rest =>
    record "Comprehension"
        [("target", target.shown), ("iter", source.shown),
          ("ifs", list (shownAll conditions)), ("span", .span span)] ::
      shownGenerators rest

def Param.shown : Param → Shown
  | .mk name hint default span =>
    record "Param"
      [("name", .string name), ("annotation", shownOpt hint), ("default", shownOpt default),
        ("span", .span span)]

def shownParams : List Param → List Shown
  | [] => []
  | param :: rest => param.shown :: shownParams rest

def shownParam : Option Param → Shown
  | none => optional none
  | some param => optional (some param.shown)

def Parameters.shown : Parameters → Shown
  | .mk args vararg nameOnly kwarg =>
    record "Parameters"
      [("args", list (shownParams args)), ("vararg", shownParam vararg),
        ("kwonly", list (shownParams nameOnly)), ("kwarg", shownParam kwarg)]

end

def Alias.shown (a : Alias) : Shown :=
  record "Alias"
    [("name", .string a.name), ("asname", optional (a.rename.map Shown.string)),
      ("span", .span a.span)]

def WithItem.shown (item : WithItem) : Shown :=
  record "WithItem"
    [("context", item.context.shown), ("target", shownOpt item.target),
      ("span", .span item.span)]

def stmtNode (kind : Shown) (span : Span) : Shown :=
  node "Stmt" kind span

def shownNames (names : List String) : Shown :=
  list (names.map Shown.string)

mutual

def Stmt.shown : Stmt → Shown
  | .expr value span => stmtNode (items "Expr" [value.shown]) span
  | .assign targets value span =>
    stmtNode
      (record "Assign" [("targets", list (shownAll targets)), ("value", value.shown)]) span
  | .annAssign target hint value span =>
    stmtNode
      (record "AnnAssign"
        [("target", target.shown), ("annotation", hint.shown), ("value", shownOpt value)])
      span
  | .augAssign target op value span =>
    stmtNode
      (record "AugAssign"
        [("target", target.shown), ("op", op.shown), ("value", value.shown)])
      span
  | .pass span => stmtNode (word "Pass") span
  | .breakStmt span => stmtNode (word "Break") span
  | .continueStmt span => stmtNode (word "Continue") span
  | .returnStmt value span => stmtNode (items "Return" [shownOpt value]) span
  | .delete targets span => stmtNode (items "Delete" [list (shownAll targets)]) span
  | .globalStmt names span => stmtNode (items "Global" [shownNames names]) span
  | .nonlocalStmt names span => stmtNode (items "Nonlocal" [shownNames names]) span
  | .assertStmt test message span =>
    stmtNode (record "Assert" [("test", test.shown), ("msg", shownOpt message)]) span
  | .raise value cause span =>
    stmtNode (record "Raise" [("exc", shownOpt value), ("cause", shownOpt cause)]) span
  | .importStmt names span =>
    stmtNode (items "Import" [list (names.map Alias.shown)]) span
  | .importFrom module names level span =>
    stmtNode
      (record "ImportFrom"
        [("module", optional (module.map Shown.string)),
          ("names", list (names.map Alias.shown)), ("level", .nat level)])
      span
  | .ifStmt test body other span =>
    stmtNode
      (record "If"
        [("test", test.shown), ("body", list (shownBody body)),
          ("orelse", list (shownBody other))])
      span
  | .whileStmt test body other span =>
    stmtNode
      (record "While"
        [("test", test.shown), ("body", list (shownBody body)),
          ("orelse", list (shownBody other))])
      span
  | .forStmt target source body other span =>
    stmtNode
      (record "For"
        [("target", target.shown), ("iter", source.shown), ("body", list (shownBody body)),
          ("orelse", list (shownBody other))])
      span
  | .withStmt withItems body span =>
    stmtNode
      (record "With"
        [("items", list (withItems.map WithItem.shown)), ("body", list (shownBody body))])
      span
  | .functionDef name params body decorators returns span =>
    stmtNode
      (record "FunctionDef"
        [("name", .string name), ("params", params.shown), ("body", list (shownBody body)),
          ("decorators", list (shownAll decorators)), ("returns", shownOpt returns)])
      span
  | .classDef name bases keywords body decorators span =>
    stmtNode
      (record "ClassDef"
        [("name", .string name), ("bases", list (shownAll bases)),
          ("keywords", list (shownKeywords keywords)), ("body", list (shownBody body)),
          ("decorators", list (shownAll decorators))])
      span
  | .tryStmt body handlers other final span =>
    stmtNode
      (record "Try"
        [("body", list (shownBody body)), ("handlers", list (shownHandlers handlers)),
          ("orelse", list (shownBody other)), ("finalbody", list (shownBody final))])
      span

def shownBody : List Stmt → List Shown
  | [] => []
  | s :: rest => s.shown :: shownBody rest

def shownHandlers : List ExceptHandler → List Shown
  | [] => []
  | .mk type name body span :: rest =>
    record "ExceptHandler"
        [("ty", shownOpt type), ("name", optional (name.map Shown.string)),
          ("body", list (shownBody body)), ("span", .span span)] ::
      shownHandlers rest

end

/-- A statement written out. -/
def Stmt.dump (s : Stmt) : String :=
  s.shown.text

end ScoreScript.Script
