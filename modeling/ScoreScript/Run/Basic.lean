import ScoreScript.Catalogue.Basic
import ScoreScript.Assembly.Basic
import ScoreScript.Script.Grammar.Statement
import ScoreScript.Script.Verdict

/-!
The names that a running script can see: at first the outermost types of the catalogue and the
helper that makes bundles. An open element adds the types nested in its own, but hides nothing
with them, and takes them away again when it closes.
-/

namespace ScoreScript

abbrev Bindings := Assoc Value

namespace Bindings

/-- The name of the helper that makes bundles. -/
def helperName : String := "_"

def start (c : Catalogue) : Bindings :=
  Assoc.put helperName .helper (c.globals.map fun (name, id) => (name, .type id))

/-- Bind a type unless the name is taken; the flag tells whether it was bound. -/
def inject (b : Bindings) (name : String) (id : TypeId) : Bindings × Bool :=
  if Assoc.contains b name then (b, false) else (Assoc.put name (.type id) b, true)

/-- Inject types in turn, and list those that were bound. -/
def injectAll (b : Bindings) : Assoc TypeId → Bindings × Assoc TypeId
  | [] => (b, [])
  | (name, id) :: rest =>
    let (b, bound) := b.inject name id
    let (b, more) := injectAll b rest
    (b, if bound then (name, id) :: more else more)

/-- Take a type away that was bound, unless the name means something else by now. -/
def eject (b : Bindings) (name : String) (id : TypeId) : Bindings :=
  match Assoc.get? b name with
  | some (.type bound) => if bound = id then Assoc.erase b name else b
  | _ => b

def ejectAll (b : Bindings) (names : Assoc TypeId) : Bindings :=
  names.foldl (fun b (name, id) => b.eject name id) b

end Bindings

/-!
Running scripts. Only a script that the sandbox accepts is run: its calls make elements, and its
`with` statements open elements around what their bodies make.
-/

/-- A running script: what its names mean, and the document so far. -/
structure Session where
  bindings : Bindings
  assembly : Assembly

abbrev Running := ExceptT Error (StateM Session)

namespace Run

open Script (Expr KeywordArg Stmt WithItem)

/-- A step of putting the document together. -/
def assembling {α : Type} (step : Step α) : Running α := fun s =>
  let (result, assembly) := step.run s.assembly
  (result, { s with assembly })

/-- Such a step; an error without a place is blamed on `span`. -/
def assemblingAt {α : Type} (span : Span) (step : Step α) : Running α := fun s =>
  let (result, s) := (assembling step).run s
  (result.mapError (·.orAt span), s)

def unsupported {α : Type} (what : String) (span : Span) : Running α :=
  throw ⟨.usage (.unsupported what), span⟩

def constantValue (span : Span) : Script.Constant → Running Value
  | .none => return .none
  | .bool b => return .bool b
  | .int n => return .int n
  | .float x => return .float x
  | .str s => return .str s
  | .bytes bytes => return .bytes bytes
  | .ellipsis => unsupported "..." span

/-- A number with the other sign; integers have 64 bits. -/
def negate (span : Span) : Value → Running Value
  | .int n =>
    if n = -(twoTo 63 : Int) then throw ⟨.usage (.badOperand s!"-({n})"), span⟩
    else return .int (-n)
  | .float x => return .float (-x)
  | .bool b => return .int (if b then -1 else 0)
  | v => throw ⟨.usage (.badOperand v.kindName), span⟩

/-- Call a value: a type makes an element where we are, the helper a bundle. The arguments are
evaluated only if there is something to call. -/
def call (c : Kit) (callee : Expr) (span : Span) (f : Value) (args : Running Arguments) :
    Running Value := do
  match f with
  | .type id =>
    let args ← args
    assemblingAt span (Assembly.create c id args span)
    let type ← c.catalogue.element id
    return .element type.tag
  | .helper => return .bundle (← args)
  | _ => throw ⟨.usage (.notCallable (Script.callableName callee)), span⟩

def lookUp (id : String) (span : Span) : Running Value := do
  match Assoc.get? (← get).bindings id with
  | some v => return v
  | none => throw ⟨.usage (.unknownName id), span⟩

mutual

def evaluate (kit : Kit) : Expr → Running Value
  | .constant value span => constantValue span value
  | .name id _ span => lookUp id span
  | .tuple items _ _ => return .tuple (← evaluateAll kit items)
  | .unary .minus operand span => do negate span (← evaluate kit operand)
  | .call callee args keywords span => do
    let f ← evaluate kit callee
    call kit callee span f do
      let positional ← evaluateAll kit args
      return ⟨positional, ← evaluateNamed kit keywords⟩
  | e => unsupported e.kind.text e.span

def evaluateAll (kit : Kit) : List Expr → Running (List Value)
  | [] => return []
  | e :: rest => do
    let v ← evaluate kit e
    return v :: (← evaluateAll kit rest)

def evaluateNamed (kit : Kit) : List KeywordArg → Running (List (String × Value))
  | [] => return []
  | .mk none _ span :: _ => unsupported "** arguments" span
  | .mk (some name) value _ :: rest => do
    let v ← evaluate kit value
    return (name, v) :: (← evaluateNamed kit rest)

end

/-- An element that a `with` item opened, and the names that it bound. -/
structure OpenItem where
  token : ScopeToken
  names : Assoc TypeId

/-- Open the element of a type and bind the types nested in it. -/
def openType (kit : Kit) (item : WithItem) (id : TypeId) (args : Arguments) :
    Running OpenItem := do
  let token ← assemblingAt item.span (Assembly.openScope kit id args item.context.span)
  let nested ← Assembly.scopeNames kit token
  let s ← get
  let (bindings, names) := s.bindings.injectAll nested
  set { s with bindings }
  return ⟨token, names⟩

/-- Store the element of a `with` item under the name after `as`. -/
def storeTarget (kit : Kit) (item : WithItem) (id : TypeId) : Running Unit := do
  match item.target with
  | none => return ()
  | some (.name name _ _) =>
    let type ← kit.catalogue.element id
    modify fun s => { s with bindings := Assoc.put name (.element type.tag) s.bindings }
  | some _ => unsupported "with target" item.span

/-- Enter a `with` item, which must call a type. -/
def enter (kit : Kit) (item : WithItem) : Running OpenItem := do
  match item.context with
  | .call callee args keywords _ =>
    match ← evaluate kit callee with
    | .type id =>
      let positional ← evaluateAll kit args
      let named ← evaluateNamed kit keywords
      let opened ← openType kit item id ⟨positional, named⟩
      storeTarget kit item id
      return opened
    | other => throw ⟨.usage (.notAScope other.kindName), item.span⟩
  | context =>
    let found ← evaluate kit context
    throw ⟨.usage (.notAScope found.kindName), item.span⟩

/-- Enter `with` items in turn; the innermost comes first. -/
def enterAll (kit : Kit) (opened : List OpenItem) : List WithItem → Running (List OpenItem)
  | [] => return opened
  | item :: rest => do enterAll kit ((← enter kit item) :: opened) rest

/-- Close what a `with` item opened, and take away the names it bound. -/
def leave (kit : Kit) (item : OpenItem) : Running Unit := do
  assembling (Assembly.close kit item.token)
  modify fun s => { s with bindings := s.bindings.ejectAll item.names }

mutual

def execute (kit : Kit) : Stmt → Running Unit
  | .expr value _ => do
    let _ ← evaluate kit value
  | .withStmt items body _ => do
    let opened ← enterAll kit [] items
    executeAll kit body
    opened.forM (leave kit)
  | .pass _ => return ()
  | s => unsupported s.kind.text s.span

def executeAll (kit : Kit) : List Stmt → Running Unit
  | [] => return ()
  | s :: rest => do
    execute kit s
    executeAll kit rest

end

/-- What a run that succeeds yields. -/
structure Output where
  document : Document
  diagnostics : List Diagnostic
  deriving Inhabited

namespace Output

def toXml (o : Output) : String :=
  o.document.toXml

end Output

/-- Run all statements and finish the document. -/
def whole (kit : Kit) (m : Script.Module) : Running Output := do
  executeAll kit m.body
  let (document, diagnostics) ← assembling (Assembly.finish kit)
  return ⟨document, diagnostics⟩

/-- Run a script that has been read. The registry goes on from run to run. -/
def ofModule (kit : Kit) (registry : Registry) (m : Script.Module) :
    Except Error Output × Registry :=
  match m.verdict.check with
  | .error e => (.error e, registry)
  | .ok () =>
    let (result, s) := (whole kit m).run ⟨.start kit.catalogue, .start registry⟩
    (result, s.assembly.log.registry)

/-- Run a script. -/
def ofText (kit : Kit) (limits : Limits) (registry : Registry) (text : String) :
    Except Error Output × Registry :=
  match Script.Module.ofText limits text with
  | .error e => (.error e, registry)
  | .ok m => ofModule kit registry m

end Run

end ScoreScript
