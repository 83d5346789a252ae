import ScoreScript.Assoc
import ScoreScript.Decimal.Text
import ScoreScript.Text.Blank
import ScoreScript.Text.Quoted

/-!
The grammar of documents: for each tag the attributes it may have, and either a rule for its
text or the sequence of its children.
-/

namespace ScoreScript

inductive ValueKind where
  | string
  | integer
  | decimal
  deriving DecidableEq, Repr

/-- A constraint on a text or an attribute: its kind, the values it may have, where none means
any, and bounds for a number, which may be reached. -/
structure ValueRule where
  kind : ValueKind := .string
  values : List String := []
  min : Option Float := none
  max : Option Float := none
  deriving Repr, Inhabited

namespace ValueRule

/-- The number that a text of this kind stands for, if it must be one. -/
def number? (kind : ValueKind) (text : String) : Option Float :=
  if kind = .integer ∧ (Decimal.int64? text).isNone then none
  else (Decimal.float? text).filter Float.isFinite

/-- Whether a value is allowed. White space around a number does not count. -/
def accepts (rule : ValueRule) (value : String) : Bool :=
  (rule.values.isEmpty || rule.values.contains value) &&
    (rule.kind == .string ||
      match number? rule.kind (trim value) with
      | none => false
      | some x => rule.min.all (· ≤ x) && rule.max.all (x ≤ ·))

/-- The wording of the bounds. -/
def boundsText (rule : ValueRule) : String :=
  match rule.min, rule.max with
  | some min, some max => s!" in {Decimal.plainText min}..={Decimal.plainText max}"
  | some min, none => s!" >= {Decimal.plainText min}"
  | none, some max => s!" <= {Decimal.plainText max}"
  | none, none => ""

/-- The wording of a rule in messages. -/
def text (rule : ValueRule) : String :=
  if !rule.values.isEmpty then "one of " ++ ", ".intercalate (rule.values.map quoted)
  else
    match rule.kind with
    | .string => "any text"
    | .integer => "an integer" ++ rule.boundsText
    | .decimal => "a decimal" ++ rule.boundsText

end ValueRule

structure AttributeRule where
  required : Bool := false
  value : ValueRule := {}
  deriving Repr, Inhabited

/-- The tags that a step of a sequence takes. -/
inductive Term where
  | element (tag : String)
  | choice (tags : List String)
  deriving DecidableEq, Repr

namespace Term

def tags : Term → List String
  | element tag => [tag]
  | choice tags => tags

def accepts (term : Term) (tag : String) : Bool :=
  term.tags.contains tag

/-- The wording of a term in messages. -/
def text : Term → String
  | element tag => tag
  | choice tags => "one of (" ++ " | ".intercalate tags ++ ")"

end Term

/-- A step of a sequence: what it takes, how often at least, and how often at most if there is
a bound. -/
structure Particle where
  term : Term
  min : Nat := 1
  max : Option Nat := some 1
  deriving DecidableEq, Repr

/-- What stands inside an element. -/
inductive Content where
  | empty
  | text (rule : ValueRule)
  | sequence (particles : List Particle)
  deriving Repr, Inhabited

structure ElementRule where
  attributes : Assoc AttributeRule := []
  content : Content := .empty
  deriving Repr, Inhabited

/-- The grammar of a format: a rule for each tag it knows. -/
structure Schema where
  format : String
  version : String
  elements : Assoc ElementRule
  deriving Repr, Inhabited

namespace Schema

def rule? (s : Schema) (tag : String) : Option ElementRule :=
  s.elements.get? tag

def declares (s : Schema) (tag : String) : Bool :=
  s.elements.contains tag

end Schema

end ScoreScript
