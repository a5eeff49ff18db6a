import ModuleAtlas.CommandLine.Snapshot
/-!
The command. It runs on the snapshot that the first line of the standard input holds. The files
that a run has changed follow its output as one line of JSON, if there are any.
-/
open ModuleAtlas

/-- Prints a text to a stream. -/
def printText (stream : IO.FS.Stream) (t : Text) : IO Unit := stream.putStr t.toString

/-- Prints what a run has come to. -/
def printResult (before : FileTree) (result : CommandLine.Result) : IO UInt32 := do
  printText (← IO.getStderr) (CommandLine.ended result.errors)
  printText (← IO.getStdout) result.output
  match CommandLine.Snapshot.changes before result.files.tree with
  | .object [] => pure ()
  | changes => printText (← IO.getStdout) (changes.text .line ++ [.scalar '\n'])
  match result.ending with
  | .ok code => return code.toUInt32
  | .error breakdown =>
    printText (← IO.getStderr) (breakdown.message ++ [.scalar '\n'])
    return 1

/-- Runs the command with its arguments. -/
def main (arguments : List String) : IO UInt32 := do
  let line ← (← IO.getStdin).getLine
  match CommandLine.Snapshot.ofText? line with
  | none =>
    IO.eprintln "The standard input holds no snapshot."
    return 2
  | some snapshot =>
    let arguments : List Text := arguments.map fun argument => Text.ofChars argument.toList
    printResult snapshot.files.tree
      (CommandLine.run arguments snapshot.environment snapshot.now snapshot.files)
