import ScoreScript.Assembly.Construction
import ScoreScript.Markup.Writer

/-!
Documents put together element by element. An element that is opened stays open while others
are made inside it, until it is closed; what is made while nothing is open becomes the root,
in place of an earlier one. Closing an element checks it strictly.
-/

namespace ScoreScript

/-- An open element: its type, its draft, the number of the scope and where it was opened. -/
structure Frame where
  id : TypeId
  draft : Draft
  scope : Nat
  span : Span

/-- What closes a scope. -/
structure ScopeToken where
  scope : Nat
  id : TypeId
  deriving DecidableEq, Repr

/-- A document and the lines before it. -/
structure Document where
  header : String
  root : Element
  deriving Inhabited

namespace Document

def toXml (d : Document) : String :=
  d.header ++ d.root.toXml

/-- The document as it is shown, without the last line break. -/
def display (d : Document) : String :=
  trimEnd d.toXml

end Document

/-- What documents are put together from, and whether a violation is an error. -/
structure Kit where
  catalogue : Catalogue
  strict : Bool
  deriving Inhabited

/-- A document that is being put together; the innermost open element comes first. -/
structure Assembly where
  frames : List Frame
  root : Option Element
  nextScope : Nat
  log : Log

/-- A step of putting a document together. A failure keeps what was logged before it. -/
abbrev Step := ExceptT Error (StateM Assembly)

namespace Assembly

def start (registry : Registry) : Assembly :=
  ⟨[], none, 0, ⟨registry, []⟩⟩

/-- The tags of the open elements, outermost first. -/
def path (a : Assembly) : List String :=
  a.frames.reverse.map (·.draft.element.tag)

/-- Work on the log alone. -/
def onLog {α : Type} (work : StateM Log α) : StateM Assembly α := fun a =>
  let (result, log) := work a.log
  (result, { a with log })

/-- Construction works on the log alone. -/
def making {α : Type} (work : Making α) : Step α :=
  ExceptT.mk (onLog work.run)

/-- So does validation, which does not fail. -/
def checking {α : Type} (work : StateM Log α) : Step α :=
  ExceptT.lift (onLog work)

/-- Add an element to the innermost open one, or make it the root. -/
def attach (span : Span) (element : Element) : StateM Assembly Unit := do
  let a ← get
  match a.frames with
  | [] => set { a with root := some element }
  | top :: below =>
    let draft ← onLog (top.draft.attach span element)
    modify fun a => { a with frames := { top with draft } :: below }

/-- Make an element where we are. -/
def create (kit : Kit) (id : TypeId) (args : Arguments) (span : Span) : Step Unit := do
  let element ← making (construct kit.catalogue span id args)
  attach span element

/-- Make an element and leave it open. -/
def openScope (kit : Kit) (id : TypeId) (args : Arguments) (span : Span) : Step ScopeToken := do
  let element ← making (construct kit.catalogue span id args)
  let type ← kit.catalogue.element id
  let a ← get
  let scope := a.nextScope
  set { a with
    frames := ⟨id, ⟨type, element, []⟩, scope, span⟩ :: a.frames
    nextScope := scope + 1 }
  return ⟨scope, id⟩

/-- How messages call a type. -/
def typeName (kit : Kit) (id : TypeId) : String :=
  match kit.catalogue.get? id with
  | some type => type.name
  | none => s!"#{id.index}"

/-- The nested types that can be used inside an open element. -/
def scopeNames (kit : Kit) (token : ScopeToken) : Except Error (Assoc TypeId) :=
  (kit.catalogue.element token.id).map (·.scope)

/-- With strict validation, no violation may have been found. -/
def escalate (kit : Kit) (tag : String) (log : Log) : Except Error Unit :=
  if kit.strict then
    match log.diagnostics with
    | [] => .ok ()
    | first :: _ => .error ⟨.invalid tag log.found.length first.violation.text, first.span⟩
  else .ok ()

/-- Close the innermost open element, which must be the one of this token. -/
def close (kit : Kit) (token : ScopeToken) : Step Unit := do
  let a ← get
  match a.frames with
  | top :: below =>
    if top.scope = token.scope then
      set { a with frames := below }
      let draft ← checking (top.draft.check .strict top.span)
      attach top.span draft.element
      if below.isEmpty then
        escalate kit draft.element.tag (← get).log
    else throw (.bare (.usage (.scopeMismatch (typeName kit token.id))))
  | [] => throw (.bare (.usage (.scopeMismatch (typeName kit token.id))))

/-- Validate a root that was never closed, as it was made by a call. -/
def settleRoot (root : Element) : StateM Log Element := do
  if root.settled then return root
  else return (← checkElement .strict .nowhere [] root).1

/-- The document, once everything is closed. -/
def finish (kit : Kit) : Step (Document × List Diagnostic) := do
  let a ← get
  match a.frames, a.root with
  | top :: _, _ => throw ⟨.usage (.unclosedScope (typeName kit top.id)), top.span⟩
  | [], none => throw (.bare (.usage .emptyDocument))
  | [], some root =>
    let root ← checking (settleRoot root)
    let log := (← get).log
    escalate kit root.tag log
    return (⟨kit.catalogue.header root.tag, root⟩, log.diagnostics)

end Assembly

end ScoreScript
