import ScoreScript.Error

/-!
Limits on the size and the nesting of untrusted input. A limit of zero does not limit.
-/

namespace ScoreScript

structure Limits where
  maxDepth : Nat
  maxSize : Nat
  deriving DecidableEq, Repr

namespace Limits

def unlimited : Limits := ⟨0, 0⟩

def allows (limit n : Nat) : Bool :=
  limit == 0 || n ≤ limit

/-- Refuse input of too many bytes. -/
def checkSize (limits : Limits) (size : Nat) : Except Error Unit :=
  if allows limits.maxSize size then .ok ()
  else .error (.bare (.limit (.size limits.maxSize)))

/-- Refuse to nest so deep; what nests begins at `span`. -/
def checkDepth (limits : Limits) (depth : Nat) (span : Span) : Except Error Unit :=
  if allows limits.maxDepth depth then .ok ()
  else .error ⟨.limit (.depth limits.maxDepth), span⟩

end Limits

end ScoreScript
