import ScoreScript.Assoc
import ScoreScript.Limits
import ScoreScript.Json.Token

/-!
JSON values and how tokens spell them. The keys of an object are distinct and keep their
order. The reader descends once per bracket, so its budget is the number of tokens.
-/

namespace ScoreScript

inductive Json where
  | null
  | bool (b : Bool)
  | number (x : Float)
  | string (s : String)
  | array (items : List Json)
  | object (entries : List (String × Json))
  deriving Inhabited

namespace Json

def asBool? : Json → Option Bool
  | bool b => some b
  | _ => none

def asNumber? : Json → Option Float
  | number x => some x
  | _ => none

def asString? : Json → Option String
  | string s => some s
  | _ => none

def asArray? : Json → Option (List Json)
  | array items => some items
  | _ => none

def asObject? : Json → Option (Assoc Json)
  | object entries => some entries
  | _ => none

/-- The value under a key, when this is an object that has it. -/
def get? (v : Json) (key : String) : Option Json :=
  v.asObject?.bind fun entries => entries.get? key

/-- What kind of value this is, in a word. -/
def kindName : Json → String
  | null => "null"
  | bool _ => "boolean"
  | number _ => "number"
  | string _ => "string"
  | array _ => "array"
  | object _ => "object"

/-- The limits on data files. -/
def defaultLimits : Limits := ⟨64, 8 * 1024 * 1024⟩

private def unexpected {α : Type} (wanted : String) (t : Token TokenKind) : Except Error α :=
  .error ⟨.grammar (.expected wanted t.kind.text), t.span⟩

mutual

/-- The value that begins with token `t`, at nesting `depth`. -/
def value (budget : Nat) (limits : Limits) (depth : Nat) (t : Token TokenKind) (s : Stream) :
    Except Error (Json × Stream) :=
  match budget with
  | 0 => unexpected "value" t
  | budget + 1 =>
    match t.kind with
    | .null => .ok (.null, s)
    | .true => .ok (.bool true, s)
    | .false => .ok (.bool false, s)
    | .string text => .ok (.string text, s)
    | .number x => .ok (.number x, s)
    | .leftBrace => do
      limits.checkDepth (depth + 1) t.span
      let (key, s) ← s.next
      match key.kind with
      | .rightBrace => pure (.object [], s)
      | _ => members budget limits (depth + 1) [] key s
    | .leftBracket => do
      limits.checkDepth (depth + 1) t.span
      let (item, s) ← s.next
      match item.kind with
      | .rightBracket => pure (.array [], s)
      | _ => elements budget limits (depth + 1) [] item s
    | _ => unexpected "value" t

/-- The entries of an object from the one that begins with token `t`, after those in `before`,
which are listed last first. -/
def members (budget : Nat) (limits : Limits) (depth : Nat) (before : Assoc Json)
    (t : Token TokenKind) (s : Stream) : Except Error (Json × Stream) :=
  match budget with
  | 0 => unexpected "string key" t
  | budget + 1 =>
    match t.kind with
    | .string key => do
      let (colon, s) ← s.next
      match colon.kind with
      | .colon => do
        let (first, s) ← s.next
        let (v, s) ← value budget limits depth first s
        if before.contains key then throw ⟨.grammar (.repeatedKey key), t.span⟩
        let entries := (key, v) :: before
        let (separator, s) ← s.next
        match separator.kind with
        | .rightBrace => pure (.object entries.reverse, s)
        | .comma => do
          let (next, s) ← s.next
          match next.kind with
          | .rightBrace => throw ⟨.grammar .trailingComma, separator.span⟩
          | _ => members budget limits depth entries next s
        | _ => unexpected "',' or '\x7d'" separator
      | _ => unexpected "':'" colon
    | _ => unexpected "string key" t

/-- The items of an array from the one that begins with token `t`, after those in `before`,
last first. -/
def elements (budget : Nat) (limits : Limits) (depth : Nat) (before : List Json)
    (t : Token TokenKind) (s : Stream) : Except Error (Json × Stream) :=
  match budget with
  | 0 => unexpected "value" t
  | budget + 1 => do
    let (v, s) ← value budget limits depth t s
    let (separator, s) ← s.next
    match separator.kind with
    | .rightBracket => pure (.array (v :: before).reverse, s)
    | .comma => do
      let (next, s) ← s.next
      match next.kind with
      | .rightBracket => throw ⟨.grammar .trailingComma, separator.span⟩
      | _ => elements budget limits depth (v :: before) next s
    | _ => unexpected "',' or ']'" separator

end

/-- The value that a whole stream of tokens spells. -/
def ofStream (limits : Limits) (s : Stream) : Except Error Json := do
  let budget := 2 * (s.tokens.length + 1)
  let (first, s) ← s.next
  let (v, s) ← value budget limits 0 first s
  let (last, _) ← s.next
  match last.kind with
  | .eof => pure v
  | _ => unexpected "end of input" last

/-- The value written by some bytes, comments allowed. -/
def ofBytes (limits : Limits) (bytes : List UInt8) : Except Error Json := do
  limits.checkSize bytes.length
  ofStream limits (.ofBytes true bytes)

/-- The value written by a data file. -/
def ofText (text : String) : Except Error Json := do
  defaultLimits.checkSize text.utf8ByteSize
  ofStream defaultLimits (.ofBytes true (utf8 text))

end Json

end ScoreScript
