import ScoreScript.Catalogue.Basic
import ScoreScript.Schema.Registry

/-!
Elements under construction, and the log of what validation finds in them. Each time an element
gets a child it is put in order and checked tolerantly. A violation is logged with the place in
the script that led to it, and only once for each draft.
-/

namespace ScoreScript

/-- A violation, what kind of check found it, and the part of the script that was at work. -/
structure Diagnostic where
  span : Span
  mode : Mode
  violation : Violation
  deriving DecidableEq, Repr

namespace Diagnostic

def text (d : Diagnostic) : String :=
  (if d.span.isNowhere then "" else d.span.start.text ++ ": ") ++
    s!"{d.mode.text} validation: {d.violation.text}"

end Diagnostic

/-- The validators in use, and what they have found so far, last first. -/
structure Log where
  registry : Registry
  found : List Diagnostic
  deriving Inhabited

namespace Log

/-- What the validators have found, in order. -/
def diagnostics (log : Log) : List Diagnostic :=
  log.found.reverse

def add (log : Log) (d : Diagnostic) : Log :=
  { log with found := d :: log.found }

end Log

/-- An element of a type, and the texts of the violations that were reported for it. -/
structure Draft where
  type : ElementType
  element : Element
  reported : List String

/-- Report violations, each unless it was reported before. -/
def report (mode : Mode) (span : Span) (reported : List String) (log : Log) :
    List Violation → List String × Log
  | [] => (reported, log)
  | v :: rest =>
    if reported.contains v.text then report mode span reported log rest
    else
      report mode span (v.text :: reported) (log.add ⟨span, mode, v⟩) rest

/-- Check an element with the validator for its tag, if there is one. -/
def checkElement (mode : Mode) (span : Span) (reported : List String) (e : Element) :
    StateM Log (Element × List String) := fun log =>
  let (validator, registry) := log.registry.lookUp e.tag
  let log := { log with registry }
  match validator with
  | none => ((e, reported), log)
  | some v =>
    let (e, found) := v.inspect mode e
    let (reported, log) := report mode span reported log found
    ((e, reported), log)

namespace Draft

def check (mode : Mode) (span : Span) (d : Draft) : StateM Log Draft := do
  let (element, reported) ← checkElement mode span d.reported d.element
  return { d with element, reported }

/-- Add a child where it belongs among the others. -/
def attach (span : Span) (child : Element) (d : Draft) : StateM Log Draft :=
  { d with element := (d.element.addChild child).sortChildren d.type.order }.check .tolerant span

def setText (d : Draft) (text : String) : Draft :=
  { d with element := d.element.setText text }

def setAttribute (d : Draft) (name value : String) : Draft :=
  { d with element := d.element.setAttribute name value }

end Draft

end ScoreScript
