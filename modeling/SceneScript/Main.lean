import SceneScript.Command

/-!
# Main — the command line on a real system

The only part with effects: it reads files from the disk, writes the output of a command to the
two channels and ends with its exit code. The library measures no time, so every duration in
the log is that of the whole command.
-/

namespace SceneScript

/-- Whether something that can be read is at a path. -/
def canOpen (path : String) : IO Bool := do
  try
    let _ ← IO.FS.Handle.mk path .read
    pure true
  catch _ => pure false

/-- What a file on the disk holds. -/
def readDisk (path : String) : IO (Except String Text) := do
  try
    let text ← IO.FS.readFile path
    pure (.ok (Text.ofString text))
  catch e => pure (.error (toString e))

/-- The disk; a directory is what has an entry for itself. -/
def disk : IO (Files IO) := do
  let here ← IO.currentDir
  pure
    { workingDirectory := toString here
      present          := canOpen
      isDirectory      := fun path => canOpen (path ++ "/.")
      read             := readDisk }

/-- More steps than a script takes in any time that one would wait. -/
def commandFuel : Nat := Nat.pow 2 60

/-- Writes a piece of output. -/
def writeOutput (elapsed : String) : Output → IO Unit
  | .out text => do (← IO.getStdout).putStr text
  | .err text => do (← IO.getStderr).putStr text
  | .log e    => do (← IO.getStderr).putStr (e.line "" elapsed ++ "\n")

end SceneScript

/-- Runs a command line. -/
def main (argv : List String) : IO UInt32 := do
  let start ← IO.monoMsNow
  let files ← SceneScript.disk
  let outcome ← SceneScript.runCommand ⟨files, SceneScript.readDisk, SceneScript.commandFuel⟩ argv
  let elapsed := (← IO.monoMsNow) - start
  outcome.output.forM (SceneScript.writeOutput s!"{elapsed}.00")
  pure outcome.code.toUInt32
