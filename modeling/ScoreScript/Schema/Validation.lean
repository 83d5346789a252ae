import ScoreScript.Error
import ScoreScript.Markup.Element
import ScoreScript.Schema.Rule
import ScoreScript.Text.Quoted

/-!
Checking elements against a schema, either whole documents or elements under construction. An
element of a tag without a rule may be as it likes, but what is inside it is checked.

While an element is under construction missing children are no surprise; when it is complete
everything counts. A check of an element under construction reports only what earlier checks held
back: a subtree that has been checked strictly is passed over, and of an element that has not changed
since its last check only missing children are still to be reported.
-/

namespace ScoreScript

inductive Fault where
  | missingElement (expected : String)
  | unexpectedElement (tag : String)
  | missingAttribute (name : String)
  | unexpectedAttribute (name : String)
  | invalidValue (target value expected : String)
  | unexpectedText
  | wrongRoot (expected found : String)
  deriving DecidableEq, Repr

namespace Fault

def text : Fault → String
  | missingElement expected => s!"missing child element, expected {expected}"
  | unexpectedElement tag => s!"unexpected child element {tag}"
  | missingAttribute name => s!"required attribute {name} is missing"
  | unexpectedAttribute name => s!"attribute {name} is not allowed"
  | invalidValue target value expected =>
    s!"{target} has invalid value {quoted value}, expected {expected}"
  | unexpectedText => "text content is not allowed"
  | wrongRoot expected found => s!"root element is {found}, expected {expected}"

def isMissingElement : Fault → Bool
  | missingElement _ => true
  | _ => false

end Fault

/-- A fault and the path to the element that has it, such as `measure/note[2]/pitch[0]`: the tag
of the element where validation began, and for each step the tag and the number of a child. -/
structure Violation where
  fault : Fault
  path : String
  deriving DecidableEq, Repr

namespace Violation

def text (v : Violation) : String :=
  s!"{v.path}: {v.fault.text}"

end Violation

inductive Mode where
  | tolerant
  | strict
  deriving DecidableEq, Repr

namespace Mode

def text : Mode → String
  | tolerant => "tolerant"
  | strict => "strict"

/-- Whether a fault counts. -/
def counts : Mode → Fault → Bool
  | strict, _ => true
  | tolerant, fault => !fault.isMissingElement

end Mode

end ScoreScript

namespace ScoreScript

/-- The faults of attributes that are there, in their order. -/
def presentFaults (rule : ElementRule) (attributes : Assoc String) : List Fault :=
  attributes.filterMap fun (name, value) =>
    match rule.attributes.get? name with
    | none => some (.unexpectedAttribute name)
    | some attr =>
      if attr.value.accepts value then none
      else some (.invalidValue s!"attribute {name}" value attr.value.text)

/-- The required attributes that are not there. -/
def absentFaults (rule : ElementRule) (attributes : Assoc String) : List Fault :=
  rule.attributes.filterMap fun (name, attr) =>
    if attr.required && (attributes.get? name).isNone then some (.missingAttribute name)
    else none

/-- The tags at the front that a step of a sequence takes: as many as it can. -/
def Particle.block (p : Particle) (tags : List String) : List String :=
  let run := tags.takeWhile p.term.accepts
  match p.max with
  | some max => run.take max
  | none => run

/-- Match the tags of children with a sequence, step by step. -/
def sequenceFaults : List Particle → (tags : List String) → List Fault
  | [], tags => tags.map .unexpectedElement
  | p :: rest, tags =>
    let taken := (p.block tags).length
    (if taken < p.min then [.missingElement p.term.text] else []) ++
      sequenceFaults rest (tags.drop taken)

def textFaults (text : Option String) : List Fault :=
  if text.all isBlankText then [] else [.unexpectedText]

/-- The faults of what stands inside an element. -/
def contentFaults (text : Option String) (tags : List String) : Content → List Fault
  | .empty => textFaults text ++ tags.map .unexpectedElement
  | .text rule =>
    let value := text.getD ""
    tags.map .unexpectedElement ++
      (if rule.accepts value then [] else [.invalidValue "text" value rule.text])
  | .sequence particles => textFaults text ++ sequenceFaults particles tags

/-- The faults of an element itself, whatever is inside its children. -/
def ElementRule.faults (rule : ElementRule) (e : Element) : List Fault :=
  presentFaults rule e.attributes ++ absentFaults rule e.attributes ++
    contentFaults e.text (e.children.map (·.tag)) rule.content

/-- The path to a child. -/
def childPath (path : String) (child : Element) (index : Nat) : String :=
  s!"{path}/{child.tag}[{index}]"

namespace Schema

/-- The faults of an element itself that its schema finds. -/
def ownFaults (s : Schema) (e : Element) : List Fault :=
  match s.rule? e.tag with
  | some rule => rule.faults e
  | none => []

mutual

/-- All violations in an element that `path` leads to. -/
def violations (s : Schema) (path : String) : Element → List Violation
  | ⟨tag, attributes, children, text, checked, settled⟩ =>
    (s.ownFaults ⟨tag, attributes, children, text, checked, settled⟩).map (⟨·, path⟩) ++
      childViolations s path 0 children

def childViolations (s : Schema) (path : String) (index : Nat) : List Element → List Violation
  | [] => []
  | child :: rest =>
    violations s (childPath path child index) child ++
      childViolations s path (index + 1) rest

end

/-- Whether a check reports a fault, given whether the element was checked before. -/
def reports (mode : Mode) (checked : Bool) (fault : Fault) : Bool :=
  match mode with
  | .tolerant => !checked && !fault.isMissingElement
  | .strict => !checked || fault.isMissingElement

/-- The faults of an element itself that a check reports. After a first check a tolerant one has
nothing to add, so it does not look. -/
def newFaults (s : Schema) (mode : Mode) (e : Element) : List Fault :=
  if mode = .tolerant ∧ e.checked then [] else (s.ownFaults e).filter (reports mode e.checked)

theorem newFaults_eq_filter (s : Schema) (mode : Mode) (e : Element) :
    s.newFaults mode e = (s.ownFaults e).filter (reports mode e.checked) := by
  unfold newFaults
  split
  · rename_i seen
    rw [seen.1, seen.2]
    exact (List.filter_eq_nil_iff.2 fun _ _ => by simp [reports]).symm
  · rfl

mutual

/-- Check an element under construction. It remembers the check; a strict one settles it. -/
def inspect (s : Schema) (mode : Mode) (path : String) :
    Element → Element × List Violation
  | ⟨tag, attributes, children, text, checked, settled⟩ =>
    let e : Element := ⟨tag, attributes, children, text, checked, settled⟩
    if settled then (e, [])
    else
      let own := s.newFaults mode e
      let (children, below) := inspectAll s mode path 0 children
      (⟨tag, attributes, children, text, true, mode == .strict⟩, own.map (⟨·, path⟩) ++ below)

def inspectAll (s : Schema) (mode : Mode) (path : String) (index : Nat) :
    List Element → List Element × List Violation
  | [] => ([], [])
  | child :: rest =>
    let (child', found) := inspect s mode (childPath path child index) child
    let (rest', more) := inspectAll s mode path (index + 1) rest
    (child' :: rest', found ++ more)

end

end Schema

/-- A validator for documents whose root has a certain tag, which the schema declares. -/
structure Validator where
  root : String
  schema : Schema

namespace Validator

def ofRoot (schema : Schema) (root : String) : Except Error Validator :=
  if schema.declares root then .ok ⟨root, schema⟩
  else .error (.bare (.schema (.undeclaredElement root)))

/-- The violations in a finished document. -/
def validate (v : Validator) (e : Element) : List Violation :=
  if e.tag = v.root then v.schema.violations e.tag e
  else [⟨.wrongRoot v.root e.tag, e.tag⟩]

/-- Those violations that count in a mode. -/
def validateIn (mode : Mode) (v : Validator) (e : Element) : List Violation :=
  (v.validate e).filter (mode.counts ·.fault)

/-- Check an element under construction, which may have any tag. -/
def inspect (v : Validator) (mode : Mode) (e : Element) : Element × List Violation :=
  v.schema.inspect mode e.tag e

end Validator

end ScoreScript
