import ScoreScript.Assoc

/-!
The arguments of the command line. A command stands first, perhaps after a flag that all
commands share. Flags and options may be given once each; short ones may be written together,
and the value of an option may follow it directly, after an equals sign or as the next
argument. After a bare `--` everything is a file name.
-/

namespace ScoreScript.CommandLine

/-- What a command takes: flags, options with a value, and the short form of each. -/
structure Usage where
  flags : List String
  options : List String
  short : List (Char × String)

/-- What was given. -/
structure Given where
  flags : List String := []
  options : Assoc String := []
  files : List String := []

namespace Given

def addFlag (g : Given) (name : String) : Option Given :=
  if g.flags.contains name then none else some { g with flags := name :: g.flags }

def addOption (g : Given) (name value : String) : Option Given :=
  if g.options.contains name || value.isEmpty then none
  else some { g with options := g.options.put name value }

/-- No command takes more than one file. -/
def addFile (g : Given) (file : String) : Option Given :=
  if !g.files.isEmpty || file.isEmpty then none else some { g with files := [file] }

end Given

/-- What an argument looks like. -/
inductive Shape where
  /-- The mark after which everything is a file. -/
  | separator
  | long (name : String) (value : Option String)
  | short (letters : List Char)
  | plain (text : String)

/-- A single dash is no option. -/
def Shape.of (arg : String) : Shape :=
  match arg.toList with
  | ['-', '-'] => separator
  | '-' :: '-' :: rest =>
    match rest.dropWhile (· ≠ '=') with
    | [] => long (String.ofList rest) none
    | _ :: value =>
      long (String.ofList (rest.takeWhile (· ≠ '='))) (some (String.ofList value))
  | '-' :: first :: rest => short (first :: rest)
  | _ => plain arg

/-- Short flags and options written together. The last one may be an option whose value is
still to come, which is returned. -/
def readLetters (u : Usage) (g : Given) : List Char → Option (Given × Option String)
  | [] => some (g, none)
  | letter :: rest =>
    match u.short.lookup letter with
    | none => none
    | some name =>
      if u.flags.contains name then (g.addFlag name).bind fun g => readLetters u g rest
      else
        match rest with
        | [] => some (g, some name)
        | '=' :: value => (g.addOption name (String.ofList value)).map (·, none)
        | value => (g.addOption name (String.ofList value)).map (·, none)

/-- A long flag or option; an option may be waiting for its value. -/
def readLong (u : Usage) (g : Given) (name : String) :
    Option String → Option (Given × Option String)
  | none =>
    if u.flags.contains name then (g.addFlag name).map (·, none)
    else if u.options.contains name then some (g, some name)
    else none
  | some value =>
    if u.options.contains name then (g.addOption name value).map (·, none) else none

/-- Read arguments; `waiting` is an option that the next one is the value of. -/
def readArguments (u : Usage) (g : Given) (waiting : Option String) :
    List String → Option Given
  | [] => if waiting.isSome then none else some g
  | arg :: rest =>
    match waiting, Shape.of arg with
    | some name, .plain value =>
      (g.addOption name value).bind fun g => readArguments u g none rest
    | some _, _ => none
    | none, .separator => rest.foldlM Given.addFile g
    | none, .long name value =>
      (readLong u g name value).bind fun (g, waiting) => readArguments u g waiting rest
    | none, .short letters =>
      (readLetters u g letters).bind fun (g, waiting) => readArguments u g waiting rest
    | none, .plain file => (g.addFile file).bind fun g => readArguments u g none rest

/-- A command. Where no file is named, the standard input and output are used; where no data
files are, the standard catalogue and schema. -/
inductive Command where
  | run (input output catalogue schema : Option String) (strict : Bool)
  | check (input : Option String) (dump : Bool)
  | translate (input output : Option String)
  deriving DecidableEq, Repr

namespace Command

def quiet : String := "quiet"

def runUsage : Usage :=
  ⟨[quiet, "strict"], ["output", "catalogue", "schema"], [('q', quiet), ('o', "output")]⟩

def checkUsage : Usage :=
  ⟨[quiet, "dump"], [], [('q', quiet)]⟩

def translateUsage : Usage :=
  ⟨[quiet], ["output"], [('q', quiet), ('o', "output")]⟩

/-- The command with a name and its arguments. -/
def ofName? (name : String) (args : List String) : Option Command :=
  match name with
  | "run" =>
    (readArguments runUsage {} none args).map fun g =>
      run g.files.head? (g.options.get? "output") (g.options.get? "catalogue")
        (g.options.get? "schema") (g.flags.contains "strict")
  | "check" =>
    (readArguments checkUsage {} none args).map fun g =>
      check g.files.head? (g.flags.contains "dump")
  | "translate" =>
    (readArguments translateUsage {} none args).map fun g =>
      translate g.files.head? (g.options.get? "output")
  | _ => none

/-- The arguments before the command can only be the flag that all commands share. -/
def before : Usage :=
  ⟨[quiet], [], [('q', quiet)]⟩

/-- The command that some arguments give, after those that were read before. -/
def ofArgumentsAfter? (g : Given) : List String → Option Command
  | [] => none
  | arg :: rest =>
    match Shape.of arg with
    | .separator => none
    | .long name value =>
      (readLong before g name value).bind fun (g, _) => ofArgumentsAfter? g rest
    | .short letters =>
      (readLetters before g letters).bind fun (g, _) => ofArgumentsAfter? g rest
    | .plain name => ofName? name rest

def ofArguments? (args : List String) : Option Command :=
  ofArgumentsAfter? {} args

end Command

end ScoreScript.CommandLine
