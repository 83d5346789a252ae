import ScoreScript.Script.Format
import ScoreScript.Script.Grammar.Basic
import ScoreScript.Text.Utf8

/-!
String literals. Literals that stand next to each other are one; if one of them is a format
string, so is the whole. Text and bytes do not mix, where a text literal without characters
counts as nothing yet.
-/

namespace ScoreScript.Script

/-- Literals that have been put together: parts that are finished, last first, and the text
after them with the place where its first literal begins, or else the bytes. -/
structure Joining where
  parts : List Expr
  text : String
  bytes : Option (List UInt8)
  isFormat : Bool
  start : Pos

namespace Joining

def empty (start : Pos) : Joining :=
  ⟨[], "", none, false, start⟩

/-- The text so far as a part that ends at `stop`. -/
def closeText (j : Joining) (stop : Pos) : Joining :=
  if j.text.isEmpty then j
  else { j with parts := .constant (.str j.text) ⟨j.start, stop⟩ :: j.parts, text := "" }

/-- The expression that has been put together. -/
def toExpr (j : Joining) (span : Span) : Expr :=
  match j.bytes with
  | some bytes => .constant (.bytes bytes) span
  | none =>
    if j.isFormat then .joined (j.closeText span.stop).parts.reverse span
    else .constant (.str j.text) span

end Joining

namespace Grammar
open Rule

def mixedLiterals {α : Type} (span : Span) : Rule α :=
  fail (.expected "bytes literal" "text literal") span

/-- The expression in a hole. It is read as a text of its own that may nest as deep as is left
here, but at least once; what is wrong with it is reported for the whole literal. -/
def holeValue (k : Knot) (source : String) (span : Span) : Rule Expr := fun nesting s =>
  let room := if nesting.limit = 0 then 0 else max (nesting.limit - nesting.depth) 1
  match k.hole room source with
  | .ok value => .ok (value, s)
  | .error e => .error ⟨e.cause, span⟩

mutual

/-- A piece of a format string. All that it consists of has the span of the literal. -/
def formatPiece (k : Knot) (span : Span) : FormatPiece → Rule Expr
  | .literal text => return .constant (.str text) span
  | .hole source conversion spec => nested do
    let value ← holeValue k source span
    match spec with
    | none => return .formatted value conversion none span
    | some pieces =>
      let parts ← formatPieces k span pieces
      return .formatted value conversion (some (.joined parts span)) span

def formatPieces (k : Knot) (span : Span) : List FormatPiece → Rule (List Expr)
  | [] => return []
  | piece :: rest => do
    let first ← formatPiece k span piece
    return first :: (← formatPieces k span rest)

end

/-- Join the pieces of a format string to the literals before it. -/
def joinPieces (k : Knot) (span : Span) (j : Joining) : List FormatPiece → Rule Joining
  | [] => return j
  | .literal text :: rest => joinPieces k span { j with text := j.text ++ text } rest
  | piece :: rest => do
    let j := j.closeText span.stop
    let part ← formatPiece k span piece
    joinPieces k span { j with parts := part :: j.parts, start := span.start } rest

/-- Join one more literal to those before it. -/
def joinLiteral (k : Knot) (j : Joining) (value : String) (kind : StringKind) (span : Span) :
    Rule Joining :=
  match kind, j.bytes with
  | .bytes, before =>
    if !j.text.isEmpty || j.isFormat then mixedLiterals span
    else return { j with bytes := some (before.getD [] ++ utf8 value) }
  | _, some _ => mixedLiterals span
  | .text, none => return { j with text := j.text ++ value }
  | .format, none =>
    match FormatPiece.ofText? value with
    | some pieces => joinPieces k span { j with isFormat := true } pieces
    | none => fail .deepFormatSpec span

/-- String literals that stand next to each other. -/
def strings (k : Knot) : Rule Expr := do
  let start ← here
  let joined ← loop (fun j => do
    match ← look with
    | .string value kind =>
      let token ← take
      some <$> joinLiteral k j value kind token.span
    | _ => return none) (Joining.empty start)
  return joined.toExpr (← spanFrom start)

end Grammar

end ScoreScript.Script
