import ScoreScript.CommandLine.Execution

/-!
The program: commands carried out on files and the standard streams.
-/

namespace ScoreScript

/-- Do something that may fail with the world outside. -/
def attempt {α : Type} (action : IO α) : IO (Option α) := do
  try
    return some (← action)
  catch _ => return none

def readAll (stream : IO.FS.Stream) : IO (Option String) := do
  let mut bytes := ByteArray.empty
  repeat
    let more ← stream.read 65536
    if more.isEmpty then break
    bytes := bytes ++ more
  return String.fromUTF8? bytes

def world : CommandLine.Host IO where
  readInput := do readAll (← IO.getStdin)
  contents path := attempt (IO.FS.readFile path)
  save path text := do return (← attempt (IO.FS.writeFile path text)).isSome
  print text := IO.print text

end ScoreScript

def main (args : List String) : IO UInt32 := do
  let exit ← ScoreScript.CommandLine.execute ScoreScript.world args
  return exit.code.toUInt32
