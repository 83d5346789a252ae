import ScoreScript.Catalogue.Standard
import ScoreScript.CommandLine.Arguments
import ScoreScript.Run.Basic
import ScoreScript.Schema.Standard
import ScoreScript.Script.Dump
import ScoreScript.Translation

/-!
What the commands do: run a script and write the document, print the verdict on a script, or
translate a document into a script. Where files come from and where text goes to is a
parameter, so a command can be carried out anywhere.
-/

namespace ScoreScript.CommandLine

/-- Where a command reads and writes. What cannot be read is `none`, and writing tells whether
it worked. -/
structure Host (m : Type → Type) where
  readInput : m (Option String)
  contents : String → m (Option String)
  save : String → String → m Bool
  print : String → m Unit

/-- The exit codes of commands. -/
inductive Exit where
  | success
  | failure
  /-- The arguments make no command. -/
  | misuse
  deriving DecidableEq, Repr

namespace Exit

def code : Exit → Nat
  | success => 0
  | failure => 1
  | misuse => 2

def ofSuccess (worked : Bool) : Exit :=
  if worked then success else failure

end Exit

variable {m : Type → Type} [Monad m]

/-- The text of a file, or of the standard input, which must not be blank. -/
def input (host : Host m) : Option String → m (Option String)
  | some path => host.contents path
  | none => do return (← host.readInput).filter fun text => !isBlankText text

/-- Write to a file, or to the standard output. -/
def output (host : Host m) (path : Option String) (text : String) : m Exit := do
  match path with
  | some path => return .ofSuccess (← host.save path text)
  | none =>
    host.print text
    return .success

/-- The catalogue to use. -/
def loadCatalogue (host : Host m) : Option String → m (Option Catalogue)
  | some path => do return (← host.contents path).bind fun text => (Catalogue.ofText text).toOption
  | none => return Catalogue.standard.toOption

/-- The registry to use. A schema that cannot be used is done without, unlike one that cannot be
read. -/
def loadRegistry (host : Host m) : Option String → m (Option Registry)
  | some path => do return (← host.contents path).map Registry.ofText
  | none => return some (.ofSchema (some .standard))

def runScript (host : Host m) (path catalogue schema : Option String) (strict : Bool)
    (script : String) : m Exit := do
  match ← loadCatalogue host catalogue with
  | none => return .failure
  | some catalogue =>
    match ← loadRegistry host schema with
    | none => return .failure
    | some registry =>
      match (Run.ofText ⟨catalogue, strict⟩ Script.defaultLimits registry script).1 with
      | .error _ => return .failure
      | .ok result => output host path result.toXml

/-- The lines that tell about a verdict. -/
def verdictText (v : Script.Verdict) : String :=
  if v.isAccepted then "accepted\n"
  else
    "rejected\n" ++ String.join (v.kinds.map fun kind => s!"  disallowed syntax: {kind.text}\n") ++
      String.join (v.calls.map fun call => s!"  disallowed call: {call}\n")

def checkScript (host : Host m) (dump : Bool) (script : String) : m Exit := do
  match Script.Module.ofText Script.defaultLimits script with
  | .error _ => return .failure
  | .ok module =>
    if dump then module.body.forM fun s => host.print (s.dump ++ "\n")
    host.print (verdictText module.verdict)
    return .ofSuccess module.verdict.isAccepted

def translateDocument (host : Host m) (path : Option String) (document : String) : m Exit := do
  match translate document with
  | .error _ => return .failure
  | .ok script => output host path script

/-- Do something with the input if it can be read. -/
def withInput (host : Host m) (path : Option String) (act : String → m Exit) : m Exit := do
  match ← input host path with
  | none => return .failure
  | some text => act text

def Command.execute (host : Host m) : Command → m Exit
  | .run path out catalogue schema strict =>
    withInput host path (runScript host out catalogue schema strict)
  | .check path dump => withInput host path (checkScript host dump)
  | .translate path out => withInput host path (translateDocument host out)

/-- Carry out what the arguments say. -/
def execute (host : Host m) (args : List String) : m Exit :=
  match Command.ofArguments? args with
  | some command => command.execute host
  | none => pure .misuse

end ScoreScript.CommandLine
