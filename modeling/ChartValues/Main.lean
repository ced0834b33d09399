import ChartValues.CommandLine.Run

/-!
# The program

Reads the working directory, runs the program on it and writes what the run has brought forth. Only files
below the working directory are visible; the log filter comes from the environment.
-/

open ChartValues

mutual

/-- The entries of a directory; what cannot be read is left out. -/
partial def readEntries (children : List IO.FS.DirEntry) : IO FileTree := do
  let trees ← children.mapM fun child => do
    return (← readEntry child).map ((child.fileName, ·))
  return .directory (trees.filterMap id)

/-- A file, or a directory with what is in it. -/
partial def readEntry (child : IO.FS.DirEntry) : IO (Option FileTree) := do
  match ← (IO.FS.readBinFile child.path).toBaseIO with
  | .ok bytes => return some (.file bytes.toList)
  | .error _ =>
    match ← child.path.readDir.toBaseIO with
    | .ok children => return some (← readEntries children.toList)
    | .error _ => return none

end

def main (args : List String) : IO UInt32 := do
  let directory ← IO.currentDir
  let files ← readEntries (← directory.readDir).toList
  let outcome := CommandLine.run args ⟨files, systemRunner files⟩ (← IO.getEnv "RUST_LOG")
  (← IO.getStdout).putStr outcome.output
  (← IO.getStderr).putStr outcome.errors
  return outcome.exitCode.toUInt32
