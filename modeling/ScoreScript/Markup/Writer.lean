import ScoreScript.Markup.Element
import ScoreScript.Text.Blank

/-!
Elements written as indented XML, one element a line, two spaces a level. An element with
neither text nor children is written as an empty tag.
-/

namespace ScoreScript

/-- One character of a text or of an attribute value. -/
def escapeChar (inAttribute : Bool) (c : Char) : List Char :=
  match c with
  | '&' => "&amp;".toList
  | '<' => "&lt;".toList
  | '>' => "&gt;".toList
  | '"' => if inAttribute then "&quot;".toList else [c]
  | '\n' => if inAttribute then "&#10;".toList else [c]
  | c => [c]

/-- Text with its markup characters escaped, inside an attribute value its quotes and line
breaks too. -/
def escape (inAttribute : Bool) (text : String) : String :=
  String.ofList (text.toList.flatMap (escapeChar inAttribute))

namespace Element

def indent (depth : Nat) : String :=
  String.ofList (List.replicate (2 * depth) ' ')

/-- The attributes of a tag, each after a space. -/
def attributeText (attributes : Assoc String) : String :=
  String.join (attributes.map fun entry =>
    " " ++ entry.1 ++ "=\"" ++ escape true entry.2 ++ "\"")

mutual

/-- The lines of an element at a depth. -/
def toLines (depth : Nat) : Element → List String
  | ⟨tag, attributes, [], text, _, _⟩ =>
    let start := indent depth ++ "<" ++ tag ++ attributeText attributes
    match text with
    | none | some "" => [start ++ " />\n"]
    | some text => [start ++ ">" ++ escape false text ++ "</" ++ tag ++ ">\n"]
  | ⟨tag, attributes, first :: rest, text, _, _⟩ =>
    (indent depth ++ "<" ++ tag ++ attributeText attributes ++ ">" ++
        escape false (text.getD "") ++ "\n") ::
      (childLines (depth + 1) (first :: rest) ++ [indent depth ++ "</" ++ tag ++ ">\n"])

def childLines (depth : Nat) : List Element → List String
  | [] => []
  | e :: rest => toLines depth e ++ childLines depth rest

end

def toXml (e : Element) : String :=
  String.join (toLines 0 e)

/-- The element as it is shown, without the last line break. -/
def display (e : Element) : String :=
  trimEnd e.toXml

end Element

end ScoreScript
