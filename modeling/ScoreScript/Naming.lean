import ScoreScript.Text.Letter

/-!
Names in scripts and names in documents. A script writes types in capitalised words and fields
in words joined by underscores; a document writes tags and attributes in lower-case words
joined by hyphens, attributes perhaps with a namespace before a colon.
-/

namespace ScoreScript.Naming

/-- Lower-case words joined by hyphens, given the character written last. A capital begins a
word, and an underscore is a hyphen. -/
def hyphenate (last : Option Char) : List Char → List Char
  | [] => []
  | c :: rest =>
    if c = '_' then '-' :: hyphenate (some '-') rest
    else if isUpper c then
      let lower := lowerForm c
      (if last = none ∨ last = some '-' then lower else '-' :: lower) ++
        hyphenate lower.getLast? rest
    else c :: hyphenate (some c) rest

/-- The tag of a type: `WorkTitle` has the tag `work-title`. -/
def tagName (type : String) : String :=
  String.ofList (hyphenate none type.toList)

/-- The attribute of a field, with its namespace where one is given. -/
def attributeName (field : String) (namespace? : Option String) : String :=
  match namespace? with
  | some ns => if ns.isEmpty then tagName field else ns ++ ":" ++ tagName field
  | none => tagName field

def isJoint (c : Char) : Bool :=
  c == '-' || c == '_'

/-- Capitalised words without joints; `first` says that a word begins here. -/
def capitalise (first : Bool) : List Char → List Char
  | [] => []
  | c :: rest =>
    if isJoint c then capitalise true rest
    else (if first then upperForm c else lowerForm c) ++ capitalise false rest

/-- The type of a tag: `work-title` has the type `WorkTitle`. -/
def typeName (tag : String) : String :=
  String.ofList (capitalise true tag.toList)

/-- What follows the last colon, or everything. -/
def localPart (cs : List Char) : List Char :=
  (cs.reverse.takeWhile (· ≠ ':')).reverse

/-- The field of an attribute: `xlink:font-family` has the field `font_family`. -/
def fieldName (name : String) : String :=
  lowerText (String.ofList ((localPart name.toList).map fun c => if c = '-' then '_' else c))

end ScoreScript.Naming
