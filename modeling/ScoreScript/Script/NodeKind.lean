/-!
The kinds of syntax that a script can contain. Besides statements and expressions these are
their parts, the use that a name is put to, and the operator of a unary expression, so that a
policy on scripts is a set of kinds.
-/

namespace ScoreScript.Script

inductive NodeKind where
  | module
  | exprStmt | assign | annAssign | augAssign | pass | breakStmt | continueStmt | returnStmt
  | delete | globalStmt | nonlocalStmt | assertStmt | raise | importStmt | importFrom | importName
  | ifStmt | whileStmt | forStmt | withStmt | withItem | functionDef | arguments | arg
  | classDef | tryStmt | exceptHandler
  | constant | name | tuple | list | set | dict | call | keyword | member | subscript
  | slice | starred | unaryOp | binOp | boolOp | compare | lambda | ifExp | namedExpr
  | listComp | setComp | dictComp | generatorExp | comprehension | joinedStr
  | formattedValue | await | yield | yieldFrom
  | load | store | del
  | not | invert | unaryPlus | negate
  deriving DecidableEq, Repr

namespace NodeKind

/-- Every kind, in the order in which reports list them. -/
def all : List NodeKind := [
  module,
  exprStmt, assign, annAssign, augAssign, pass, breakStmt, continueStmt, returnStmt,
  delete, globalStmt, nonlocalStmt, assertStmt, raise, importStmt, importFrom, importName,
  ifStmt, whileStmt, forStmt, withStmt, withItem, functionDef, arguments, arg,
  classDef, tryStmt, exceptHandler,
  constant, name, tuple, list, set, dict, call, keyword, member, subscript,
  slice, starred, unaryOp, binOp, boolOp, compare, lambda, ifExp, namedExpr,
  listComp, setComp, dictComp, generatorExp, comprehension, joinedStr,
  formattedValue, await, yield, yieldFrom,
  load, store, del,
  not, invert, unaryPlus, negate]

/-- The name of a kind in reports and messages. -/
def text : NodeKind → String
  | module => "module"
  | exprStmt => "expr-stmt"
  | assign => "assign"
  | annAssign => "ann-assign"
  | augAssign => "aug-assign"
  | pass => "pass"
  | breakStmt => "break"
  | continueStmt => "continue"
  | returnStmt => "return"
  | delete => "delete"
  | globalStmt => "global"
  | nonlocalStmt => "nonlocal"
  | assertStmt => "assert"
  | raise => "raise"
  | importStmt => "import"
  | importFrom => "import-from"
  | importName => "alias"
  | ifStmt => "if"
  | whileStmt => "while"
  | forStmt => "for"
  | withStmt => "with"
  | withItem => "with-item"
  | functionDef => "function-def"
  | arguments => "arguments"
  | arg => "arg"
  | classDef => "class-def"
  | tryStmt => "try"
  | exceptHandler => "except-handler"
  | constant => "constant"
  | name => "name"
  | tuple => "tuple"
  | list => "list"
  | set => "set"
  | dict => "dict"
  | call => "call"
  | keyword => "keyword"
  | member => "attribute"
  | subscript => "subscript"
  | slice => "slice"
  | starred => "starred"
  | unaryOp => "unary-op"
  | binOp => "bin-op"
  | boolOp => "bool-op"
  | compare => "compare"
  | lambda => "lambda"
  | ifExp => "if-exp"
  | namedExpr => "named-expr"
  | listComp => "list-comp"
  | setComp => "set-comp"
  | dictComp => "dict-comp"
  | generatorExp => "generator-exp"
  | comprehension => "comprehension"
  | joinedStr => "joined-str"
  | formattedValue => "formatted-value"
  | await => "await"
  | yield => "yield"
  | yieldFrom => "yield-from"
  | load => "load"
  | store => "store"
  | del => "del"
  | not => "not"
  | invert => "invert"
  | unaryPlus => "unary-plus"
  | negate => "negate"

theorem mem_all (k : NodeKind) : k ∈ all := by
  cases k <;> decide

end NodeKind

end ScoreScript.Script
