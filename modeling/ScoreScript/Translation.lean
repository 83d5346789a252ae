import ScoreScript.Markup.Reader
import ScoreScript.Naming
import ScoreScript.Value.Basic

/-!
Documents as scripts that rebuild them. An element is a call of the constructor named after its
tag; its text is the only positional argument and its attributes are named ones. Children stand
in the block of a `with` statement over the call.
-/

namespace ScoreScript

namespace Element

/-- The call that makes an element without its children. -/
def toCall (e : Element) : String :=
  let args := e.text.toList.map quote ++
    e.attributes.map fun (name, value) => Naming.fieldName name ++ "=" ++ quote value
  Naming.typeName e.tag ++ "(" ++ ", ".intercalate args ++ ")"

def blockIndent (depth : Nat) : String :=
  String.ofList (List.replicate (4 * depth) ' ')

mutual

/-- The lines of the statement that makes an element at a depth of nesting. -/
def toStatement (depth : Nat) : Element → List String
  | ⟨tag, attributes, children, text, checked, settled⟩ =>
    let call := toCall ⟨tag, attributes, children, text, checked, settled⟩
    match children with
    | [] => [blockIndent depth ++ call ++ "\n"]
    | first :: rest =>
      (blockIndent depth ++ "with " ++ call ++ ":\n") :: toBlock (depth + 1) (first :: rest)

def toBlock (depth : Nat) : List Element → List String
  | [] => []
  | e :: rest => toStatement depth e ++ toBlock depth rest

end

def toScript (e : Element) : String :=
  String.join (toStatement 0 e)

end Element

/-- The script that rebuilds a document. -/
def translate (document : String) : Except Error String :=
  (Markup.readText document).map Element.toScript

end ScoreScript
