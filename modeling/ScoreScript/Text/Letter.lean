import ScoreScript.Text.CaseTable

/-!
Upper and lower case. In ASCII the answer is read off the letter; elsewhere it comes from the
tables. A character may have a case form of several characters.
-/

namespace ScoreScript

def isLower (c : Char) : Bool :=
  if c.toNat < 128 then c.isLower else inTable CaseTable.lowercase c

def isUpper (c : Char) : Bool :=
  if c.toNat < 128 then c.isUpper else inTable CaseTable.uppercase c

/-- Letters with case, whichever it is. -/
def isCased (c : Char) : Bool :=
  isLower c || isUpper c || inTable CaseTable.titlecase c

/-- Characters that are passed over when the neighbours of a sigma are looked at. -/
def isCaseIgnorable (c : Char) : Bool :=
  if c.toNat < 128 then "'.:^\x60".toList.contains c else inTable CaseTable.ignorable c

/-- The case form of a character beyond ASCII. -/
def caseForm (one : List (Stretch × Int)) (many : List (Nat × List Nat)) (c : Char) :
    List Char :=
  match many.find? (·.1 == c.toNat) with
  | some (_, form) => form.map Char.ofNat
  | none =>
    match one.find? (·.1.contains c.toNat) with
    | some (_, distance) => [Char.ofNat (c.toNat + distance).toNat]
    | none => [c]

def lowerForm (c : Char) : List Char :=
  if c.toNat < 128 then [c.toLower] else caseForm CaseTable.toLower CaseTable.toLowerMany c

def upperForm (c : Char) : List Char :=
  if c.toNat < 128 then [c.toUpper] else caseForm CaseTable.toUpper CaseTable.toUpperMany c

/-- Whether the first character that is not passed over is a letter with case. -/
def meetsCased (cs : List Char) : Bool :=
  (cs.find? (!isCaseIgnorable ·)).any isCased

/-- Lower-case a word from left to right, given what stands before it in reverse. A capital
sigma that ends a word takes its final form. -/
def lowerAfter (before : List Char) : List Char → List Char
  | [] => []
  | 'Σ' :: rest =>
    (if meetsCased before && !meetsCased rest then 'ς' else 'σ') ::
      lowerAfter ('Σ' :: before) rest
  | c :: rest => lowerForm c ++ lowerAfter (c :: before) rest

/-- A text in lower case. -/
def lowerText (text : String) : String :=
  String.ofList (lowerAfter [] text.toList)

end ScoreScript
