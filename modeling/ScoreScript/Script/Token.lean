import ScoreScript.Script.Operator
import ScoreScript.Source.Position
import ScoreScript.Text.Quoted

/-!
The tokens of scripts, and the reserved words among them. Besides what is written there are layout
tokens: the end of a line, and the steps by which its indentation grows and shrinks.
-/

namespace ScoreScript.Script

inductive Keyword where
  | falseKw | noneKw | trueKw | andKw | asKw | assertKw | awaitKw | breakKw | classKw
  | continueKw | defKw | delKw | elifKw | elseKw | exceptKw | finallyKw | forKw | fromKw
  | globalKw | ifKw | importKw | inKw | isKw | lambdaKw | nonlocalKw | notKw | orKw | passKw
  | raiseKw | returnKw | tryKw | whileKw | withKw | yieldKw
  deriving DecidableEq, Repr

namespace Keyword

def all : List Keyword := [
  falseKw, noneKw, trueKw, andKw, asKw, assertKw, awaitKw, breakKw, classKw,
  continueKw, defKw, delKw, elifKw, elseKw, exceptKw, finallyKw, forKw, fromKw,
  globalKw, ifKw, importKw, inKw, isKw, lambdaKw, nonlocalKw, notKw, orKw, passKw,
  raiseKw, returnKw, tryKw, whileKw, withKw, yieldKw]

/-- The spelling of a reserved word. -/
def text : Keyword → String
  | falseKw => "False"
  | noneKw => "None"
  | trueKw => "True"
  | andKw => "and"
  | asKw => "as"
  | assertKw => "assert"
  | awaitKw => "await"
  | breakKw => "break"
  | classKw => "class"
  | continueKw => "continue"
  | defKw => "def"
  | delKw => "del"
  | elifKw => "elif"
  | elseKw => "else"
  | exceptKw => "except"
  | finallyKw => "finally"
  | forKw => "for"
  | fromKw => "from"
  | globalKw => "global"
  | ifKw => "if"
  | importKw => "import"
  | inKw => "in"
  | isKw => "is"
  | lambdaKw => "lambda"
  | nonlocalKw => "nonlocal"
  | notKw => "not"
  | orKw => "or"
  | passKw => "pass"
  | raiseKw => "raise"
  | returnKw => "return"
  | tryKw => "try"
  | whileKw => "while"
  | withKw => "with"
  | yieldKw => "yield"

/-- The reserved word with a spelling. -/
def ofText? (word : String) : Option Keyword :=
  all.find? (·.text == word)

theorem mem_all (k : Keyword) : k ∈ all := by
  cases k <;> decide

end Keyword

end ScoreScript.Script

namespace ScoreScript.Script

/-- The flavour of a string literal. -/
inductive StringKind where
  | text
  | bytes
  | format
  deriving DecidableEq, Repr

inductive TokenKind where
  | name (id : String)
  | keyword (word : Keyword)
  | int (n : Nat)
  | float (x : Float)
  | string (value : String) (kind : StringKind)
  | op (sign : Operator)
  | newline
  | indent
  | dedent
  | eof
  deriving Repr, Inhabited

namespace TokenKind

/-- The wording of a token in messages. -/
def text : TokenKind → String
  | name id => "name " ++ quoted id
  | keyword word => "'" ++ word.text ++ "'"
  | int _ | float _ => "number"
  | string _ _ => "string"
  | op sign => "'" ++ sign.text ++ "'"
  | newline => "end of line"
  | indent => "indent"
  | dedent => "dedent"
  | eof => "end of input"

def isEof : TokenKind → Bool
  | eof => true
  | _ => false

/-- Whether a token marks where a line or a block ends or begins. -/
def isLayout : TokenKind → Bool
  | newline | indent | dedent => true
  | _ => false

end TokenKind

end ScoreScript.Script
