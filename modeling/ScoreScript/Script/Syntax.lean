import ScoreScript.Script.NodeKind
import ScoreScript.Script.Operator
import ScoreScript.Source.Position

/-!
The syntax trees of scripts. The tree knows far more forms than a script may use, so that a
policy can name what it refuses. Every node carries the span of text it was read from.
-/

namespace ScoreScript.Script

/-- What an expression is used for: its value is taken, or it is assigned to or deleted. -/
inductive Use where
  | load
  | store
  | del
  deriving DecidableEq, Repr

namespace Use

def kind : Use → NodeKind
  | load => .load
  | store => .store
  | del => .del

end Use

inductive UnaryOperator where
  | not
  | invert
  | plus
  | minus
  deriving DecidableEq, Repr

namespace UnaryOperator

def kind : UnaryOperator → NodeKind
  | not => .not
  | invert => .invert
  | plus => .unaryPlus
  | minus => .negate

end UnaryOperator

inductive BooleanOperator where
  | and
  | or
  deriving DecidableEq, Repr

inductive CompareOperator where
  | equal | notEqual | less | lessEq | greater | greaterEq | is | isNot | isIn | notIn
  deriving DecidableEq, Repr

/-- Literal values. -/
inductive Constant where
  | none
  | bool (b : Bool)
  | int (n : Int)
  | float (x : Float)
  | str (s : String)
  | bytes (bytes : List UInt8)
  | ellipsis
  deriving Repr, Inhabited

mutual

inductive Expr where
  | constant (value : Constant) (span : Span)
  | name (id : String) (use : Use) (span : Span)
  | tuple (items : List Expr) (use : Use) (span : Span)
  | list (items : List Expr) (use : Use) (span : Span)
  | set (items : List Expr) (span : Span)
  | dict (entries : List DictEntry) (span : Span)
  | call (callee : Expr) (args : List Expr) (keywords : List KeywordArg) (span : Span)
  | member (owner : Expr) (field : String) (use : Use) (span : Span)
  | subscript (owner index : Expr) (use : Use) (span : Span)
  | slice (lower upper step : Option Expr) (span : Span)
  | starred (value : Expr) (use : Use) (span : Span)
  | unary (op : UnaryOperator) (operand : Expr) (span : Span)
  | binary (left : Expr) (op : BinaryOperator) (right : Expr) (span : Span)
  | boolean (op : BooleanOperator) (operands : List Expr) (span : Span)
  | compare (left : Expr) (rest : List Comparison) (span : Span)
  | lambda (params : Parameters) (body : Expr) (span : Span)
  | conditional (test body other : Expr) (span : Span)
  | named (target value : Expr) (span : Span)
  | listComp (item : Expr) (generators : List Comprehension) (span : Span)
  | setComp (item : Expr) (generators : List Comprehension) (span : Span)
  | dictComp (key value : Expr) (generators : List Comprehension) (span : Span)
  | generator (item : Expr) (generators : List Comprehension) (span : Span)
  | joined (parts : List Expr) (span : Span)
  | formatted (value : Expr) (conversion : Option Char) (spec : Option Expr) (span : Span)
  | await (value : Expr) (span : Span)
  | yield (value : Option Expr) (span : Span)
  | yieldFrom (value : Expr) (span : Span)

/-- A key with its value, or a mapping whose entries are taken over. -/
inductive DictEntry where
  | pair (key value : Expr)
  | unpack (mapping : Expr)

/-- A named argument of a call; without a name, a mapping of arguments. -/
inductive KeywordArg where
  | mk (name : Option String) (value : Expr) (span : Span)

/-- A step of a chain of comparisons. -/
inductive Comparison where
  | mk (op : CompareOperator) (operand : Expr)

/-- A `for` clause of a comprehension with its conditions. -/
inductive Comprehension where
  | mk (target source : Expr) (conditions : List Expr) (span : Span)

inductive Param where
  | mk (name : String) (hint default : Option Expr) (span : Span)

/-- Parameters: those passed by place or name, the one that takes the rest, those passed by
name only, and the one that takes the other names. -/
inductive Parameters where
  | mk (args : List Param) (vararg : Option Param) (nameOnly : List Param)
    (kwarg : Option Param)

end

instance : Inhabited Expr := ⟨.constant .none .nowhere⟩

namespace Expr

def span : Expr → Span
  | constant _ s | name _ _ s | tuple _ _ s | list _ _ s | set _ s | dict _ s | call _ _ _ s
  | member _ _ _ s | subscript _ _ _ s | slice _ _ _ s | starred _ _ s | unary _ _ s
  | binary _ _ _ s | boolean _ _ s | compare _ _ s | lambda _ _ s | conditional _ _ _ s
  | named _ _ s | listComp _ _ s | setComp _ _ s | dictComp _ _ _ s | generator _ _ s
  | joined _ s | formatted _ _ _ s | await _ s | yield _ s | yieldFrom _ s => s

/-- The kind of the node itself, whatever it holds. -/
def kind : Expr → NodeKind
  | constant .. => .constant
  | name .. => .name
  | tuple .. => .tuple
  | list .. => .list
  | set .. => .set
  | dict .. => .dict
  | call .. => .call
  | member .. => .member
  | subscript .. => .subscript
  | slice .. => .slice
  | starred .. => .starred
  | unary .. => .unaryOp
  | binary .. => .binOp
  | boolean .. => .boolOp
  | compare .. => .compare
  | lambda .. => .lambda
  | conditional .. => .ifExp
  | named .. => .namedExpr
  | listComp .. => .listComp
  | setComp .. => .setComp
  | dictComp .. => .dictComp
  | generator .. => .generatorExp
  | joined .. => .joinedStr
  | formatted .. => .formattedValue
  | await .. => .await
  | yield .. => .yield
  | yieldFrom .. => .yieldFrom

end Expr

namespace KeywordArg

def name : KeywordArg → Option String
  | mk name _ _ => name

def value : KeywordArg → Expr
  | mk _ value _ => value

def span : KeywordArg → Span
  | mk _ _ span => span

end KeywordArg

namespace Parameters

def empty : Parameters := .mk [] none [] none

end Parameters

/-- A name that is imported, perhaps under another name. -/
structure Alias where
  name : String
  rename : Option String
  span : Span
  deriving DecidableEq, Repr

/-- An expression of a `with` statement and what its value is stored in. -/
structure WithItem where
  context : Expr
  target : Option Expr
  span : Span
  deriving Inhabited

mutual

inductive Stmt where
  | expr (value : Expr) (span : Span)
  | assign (targets : List Expr) (value : Expr) (span : Span)
  | annAssign (target hint : Expr) (value : Option Expr) (span : Span)
  | augAssign (target : Expr) (op : BinaryOperator) (value : Expr) (span : Span)
  | pass (span : Span)
  | breakStmt (span : Span)
  | continueStmt (span : Span)
  | returnStmt (value : Option Expr) (span : Span)
  | delete (targets : List Expr) (span : Span)
  | globalStmt (names : List String) (span : Span)
  | nonlocalStmt (names : List String) (span : Span)
  | assertStmt (test : Expr) (message : Option Expr) (span : Span)
  | raise (value cause : Option Expr) (span : Span)
  | importStmt (names : List Alias) (span : Span)
  | importFrom (module : Option String) (names : List Alias) (level : Nat) (span : Span)
  | ifStmt (test : Expr) (body other : List Stmt) (span : Span)
  | whileStmt (test : Expr) (body other : List Stmt) (span : Span)
  | forStmt (target source : Expr) (body other : List Stmt) (span : Span)
  | withStmt (items : List WithItem) (body : List Stmt) (span : Span)
  | functionDef (name : String) (params : Parameters) (body : List Stmt)
    (decorators : List Expr) (returns : Option Expr) (span : Span)
  | classDef (name : String) (bases : List Expr) (keywords : List KeywordArg)
    (body : List Stmt) (decorators : List Expr) (span : Span)
  | tryStmt (body : List Stmt) (handlers : List ExceptHandler) (other final : List Stmt)
    (span : Span)

/-- A clause of a `try` statement: the errors it handles, and the name they get. -/
inductive ExceptHandler where
  | mk (type : Option Expr) (name : Option String) (body : List Stmt) (span : Span)

end

namespace Stmt

def span : Stmt → Span
  | expr _ s | assign _ _ s | annAssign _ _ _ s | augAssign _ _ _ s | pass s | breakStmt s
  | continueStmt s | returnStmt _ s | delete _ s | globalStmt _ s | nonlocalStmt _ s
  | assertStmt _ _ s | raise _ _ s | importStmt _ s | importFrom _ _ _ s | ifStmt _ _ _ s
  | whileStmt _ _ _ s | forStmt _ _ _ _ s | withStmt _ _ s | functionDef _ _ _ _ _ s
  | classDef _ _ _ _ _ s | tryStmt _ _ _ _ s => s

/-- The kind of the node itself, whatever it holds. -/
def kind : Stmt → NodeKind
  | expr .. => .exprStmt
  | assign .. => .assign
  | annAssign .. => .annAssign
  | augAssign .. => .augAssign
  | pass .. => .pass
  | breakStmt .. => .breakStmt
  | continueStmt .. => .continueStmt
  | returnStmt .. => .returnStmt
  | delete .. => .delete
  | globalStmt .. => .globalStmt
  | nonlocalStmt .. => .nonlocalStmt
  | assertStmt .. => .assertStmt
  | raise .. => .raise
  | importStmt .. => .importStmt
  | importFrom .. => .importFrom
  | ifStmt .. => .ifStmt
  | whileStmt .. => .whileStmt
  | forStmt .. => .forStmt
  | withStmt .. => .withStmt
  | functionDef .. => .functionDef
  | classDef .. => .classDef
  | tryStmt .. => .tryStmt

end Stmt

/-- A whole script. -/
structure Module where
  body : List Stmt

namespace Module

/-- From the first statement to the last; a script without statements has no place. -/
def span (m : Module) : Span :=
  match m.body.head?, m.body.getLast? with
  | some first, some last => first.span.cover last.span
  | _, _ => .nowhere

end Module

end ScoreScript.Script
