import ScoreScript.Error
import ScoreScript.Script.Walk
import ScoreScript.Text.Letter

/-!
Which scripts may run. A script is refused if it contains syntax that is not allowed, or if it
calls something whose name begins with a lower case letter: the names of elements are
capitalised, those of host functions are not.
-/

namespace ScoreScript.Script

/-- Calls of constructors, literals, names and nested `with` blocks. -/
def allowedKinds : List NodeKind := [
  .module, .exprStmt, .call, .keyword, .name, .load, .store, .tuple, .constant, .unaryOp,
  .negate, .withStmt, .withItem, .pass]

/-- How reports call the callee of a call; one that has no dotted name goes by its kind. -/
def callableName : Expr → String
  | .name id _ _ => id
  | .member owner field _ _ => callableName owner ++ "." ++ field
  | callee => s!"<{callee.kind.text}>"

def isHostName (name : String) : Bool :=
  match name.toList with
  | [] => false
  | first :: _ => isLower first

/-- What a script contains that it must not, each thing once, in order. -/
structure Verdict where
  kinds : List NodeKind
  calls : List String
  deriving DecidableEq, Repr

namespace Verdict

def isAccepted (v : Verdict) : Bool :=
  v.kinds.isEmpty && v.calls.isEmpty

/-- The error of a refused script. -/
def check (v : Verdict) : Except Error Unit :=
  if v.isAccepted then .ok () else .error (.bare (.rejected ⟨v.kinds, v.calls⟩))

end Verdict

/-- The kinds of syntax that the walk comes by. -/
def Event.kind? : Event → Option NodeKind
  | .kind found _ => some found
  | .call .. => none

/-- The names of what the walk sees called. -/
def Event.callee? : Event → Option String
  | .kind .. => none
  | .call callee _ => some (callableName callee)

/-- The members of a list, each once, in ascending order. -/
def inOrderOnce (names : List String) : List String :=
  (names.mergeSort fun a b => !(b < a)).eraseReps

/-- The verdict on a script. -/
def Module.verdict (m : Module) : Verdict :=
  let events := m.events
  let found := (events.filterMap Event.kind?).eraseDups
  ⟨NodeKind.all.filter fun kind => found.contains kind && !allowedKinds.contains kind,
    inOrderOnce ((events.filterMap Event.callee?).filter isHostName)⟩

end ScoreScript.Script
