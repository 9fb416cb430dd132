import RecordQuery.Bookshelf.Command

/-!
# The bookshelf command line

Reads what the command needs from its surroundings, runs it, and passes on what it leaves behind.
-/

namespace RecordQuery.Bookshelf

/-- The text of a file, unless it cannot be read. -/
def readText? (path : String) : IO (Option String) := do
  try
    return some (← IO.FS.readFile path)
  catch _ =>
    return none

def randomBytes (count : USize) : IO (List UInt8) := do
  return (← IO.getRandomBytes count).toList

/-- Runs the command and gives its exit code. -/
def runWith (arguments : List String) : IO UInt32 := do
  let text? ←
    match (Task.read arguments).toOption.bind Task.path? with
    | some path => readText? path
    | none => pure none
  match Cipher.Key.ofBytes (← randomBytes 32) with
  | .error e =>
    IO.eprintln e.message
    return 1
  | .ok key =>
    let surroundings : Surroundings :=
      { file? := fun _ ↦ text?
        key? := ← IO.getEnv "BOOKSHELF_KEY"
        randomKey := key
        nonce := ← randomBytes 12 }
    let outcome := run surroundings arguments
    IO.print outcome.output
    IO.eprint outcome.complaint
    return outcome.exitCode.toUInt32

end RecordQuery.Bookshelf

def main (arguments : List String) : IO UInt32 :=
  RecordQuery.Bookshelf.runWith arguments
