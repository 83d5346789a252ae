import ScoreScript.Source.Position
import ScoreScript.Script.NodeKind
import ScoreScript.Text.Quoted

/-!
Everything that can go wrong, as causes. Each family of causes has one function for its
wording; an error adds the span of text that is to blame, if there is one.
-/

namespace ScoreScript

/-- Characters that do not form tokens. -/
inductive LexicalError where
  | character (c : Char)
  | escape
  | number (text : String)
  | openString
  | indentation
  | utf8
  deriving DecidableEq, Repr

namespace LexicalError

def message : LexicalError → String
  | character c => s!"invalid character {quotedLetter c}"
  | escape => "invalid escape sequence"
  | number text => s!"invalid number {quoted text}"
  | openString => "unterminated string"
  | indentation => "inconsistent indentation"
  | utf8 => "invalid utf-8"

end LexicalError

/-- What a document's markup gets wrong. -/
inductive MarkupFault where
  | trailingContent
  | openDoctype
  | closingTag
  | mismatchedTag
  | openElement
  | openTag
  | repeatedAttribute
  | bareAttributeValue
  | openAttributeValue
  | missingName
  | openMarkup
  | missing (c : Char)
  | utf8
  deriving DecidableEq, Repr

namespace MarkupFault

def message : MarkupFault → String
  | trailingContent => "content after the root element"
  | openDoctype => "unterminated DOCTYPE"
  | closingTag => "unexpected closing tag"
  | mismatchedTag => "mismatched closing tag"
  | openElement => "unterminated element"
  | openTag => "unexpected end of input"
  | repeatedAttribute => "duplicate attribute"
  | bareAttributeValue => "expected quoted attribute value"
  | openAttributeValue => "unterminated attribute value"
  | missingName => "expected name"
  | openMarkup => "unterminated markup"
  | missing c => s!"expected {quotedLetter c}"
  | utf8 => "invalid utf-8"

end MarkupFault

/-- Tokens that do not form a tree. -/
inductive GrammarError where
  | expected (wanted found : String)
  | repeatedKeyword (name : String)
  | positionalAfterKeyword
  | invalidTarget (kind : Script.NodeKind)
  | repeatedKey (key : String)
  | trailingComma
  | markup (fault : MarkupFault)
  | entity (name : String)
  | deepFormatSpec
  deriving DecidableEq, Repr

namespace GrammarError

def message : GrammarError → String
  | expected wanted found => s!"expected {wanted}, found {found}"
  | repeatedKeyword name => s!"keyword argument repeated: {name}"
  | positionalAfterKeyword => "positional argument follows keyword argument"
  | invalidTarget kind => s!"cannot assign to {kind.text}"
  | repeatedKey key => s!"duplicate key: {key}"
  | trailingComma => "trailing comma"
  | markup fault => s!"malformed markup: {fault.message}"
  | entity name => s!"invalid xml entity &{name}"
  | deepFormatSpec => "f-string format spec nested too deeply"

end GrammarError

/-- Limits on untrusted input. -/
inductive LimitError where
  | depth (max : Nat)
  | size (max : Nat)
  deriving DecidableEq, Repr

namespace LimitError

def message : LimitError → String
  | depth max => s!"max depth exceeded: {max}"
  | size max => s!"max size exceeded: {max}"

end LimitError

/-- What a refused script contains that it must not. -/
structure Rejection where
  kinds : List Script.NodeKind
  calls : List String
  deriving DecidableEq, Repr

namespace Rejection

def message (r : Rejection) : String :=
  "script rejected by sandbox" ++
    (if r.kinds.isEmpty then ""
      else "; disallowed syntax: " ++ ", ".intercalate (r.kinds.map (·.text))) ++
    (if r.calls.isEmpty then ""
      else "; disallowed calls: " ++ ", ".intercalate r.calls)

end Rejection

/-- Constructors and scopes that a script uses wrongly. -/
inductive UsageError where
  | unknownField (element field : String)
  | prebuiltChild (element field : String)
  | unknownName (name : String)
  | notCallable (name : String)
  | tooManyArguments (element : String) (max given : Nat)
  | duplicateArgument (element field : String)
  | badOperand (operand : String)
  | notAScope (found : String)
  | scopeMismatch (element : String)
  | unclosedScope (element : String)
  | emptyDocument
  | unsupported (what : String)
  deriving DecidableEq, Repr

namespace UsageError

def message : UsageError → String
  | unknownField element field => s!"{element} has no field named {field}"
  | prebuiltChild element field =>
    s!"{element}({field}=...) was given an element that is already built; " ++
      "use _(...) to pass arguments instead"
  | unknownName name => s!"name {name} is not defined"
  | notCallable name => s!"{name} is not callable"
  | tooManyArguments element max given =>
    s!"{element} takes at most {max} positional arguments, {given} given"
  | duplicateArgument element field => s!"{element} got multiple values for field {field}"
  | badOperand operand => s!"bad operand for unary minus: {operand}"
  | notAScope found => s!"only element constructors can open a scope, found {found}"
  | scopeMismatch element => s!"scope {element} is not the innermost open scope"
  | unclosedScope element => s!"scope {element} was never closed"
  | emptyDocument => "script did not produce any element"
  | unsupported what => s!"{what} is not supported at run time"

end UsageError

/-- Data files that cannot be used. -/
inductive SchemaError where
  | malformed (detail : String)
  | unresolvedType (type field : String)
  | unknownBase (type base : String)
  | cyclicBase (type : String)
  | endlessField (value : String)
  | undeclaredElement (tag : String)
  | unavailable
  deriving DecidableEq, Repr

namespace SchemaError

def message : SchemaError → String
  | malformed detail => s!"malformed data: {detail}"
  | unresolvedType type field => s!"type {type} field {field} does not name a known element type"
  | unknownBase type base => s!"type {type} has unknown base {base}"
  | cyclicBase type => s!"type {type} inherits from itself"
  | endlessField value => s!"plain value {value} is handed on without end"
  | undeclaredElement tag => s!"element {tag} is not declared in the master schema"
  | unavailable => "master schema is not loaded"

end SchemaError

/-- The cause of an error, by family. -/
inductive Cause where
  | lexical (e : LexicalError)
  | grammar (e : GrammarError)
  | limit (e : LimitError)
  | rejected (r : Rejection)
  | usage (e : UsageError)
  /-- A finished document with this many findings. -/
  | invalid (tag : String) (count : Nat) (first : String)
  | schema (e : SchemaError)
  deriving DecidableEq, Repr

namespace Cause

def message : Cause → String
  | lexical e => e.message
  | grammar e => e.message
  | limit e => e.message
  | rejected r => r.message
  | usage e => e.message
  | invalid tag count first =>
    s!"{tag} failed validation with {count} violation(s); first: {first}"
  | schema e => e.message

end Cause

/-- A cause and the text that is to blame. -/
structure Error where
  cause : Cause
  span : Span
  deriving DecidableEq, Repr

namespace Error

/-- An error without a place. -/
def bare (cause : Cause) : Error :=
  ⟨cause, .nowhere⟩

def point (cause : Cause) (p : Pos) : Error :=
  ⟨cause, .point p⟩

def message (e : Error) : String :=
  e.cause.message

/-- The message, with the place where there is one. -/
def text (e : Error) : String :=
  if e.span.isNowhere then e.message
  else s!"error at {e.span.start.text}: {e.message}"

/-- The error, placed at `span` unless it has a place already. -/
def orAt (e : Error) (span : Span) : Error :=
  if e.span.isNowhere then ⟨e.cause, span⟩ else e

@[simp] theorem cause_orAt (e : Error) (span : Span) : (e.orAt span).cause = e.cause := by
  unfold orAt
  split <;> rfl

end Error

end ScoreScript
