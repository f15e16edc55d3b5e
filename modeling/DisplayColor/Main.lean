import DisplayColor.CommandLine.Program

/-! # The command

Runs the program on the files and variables of the machine. -/

open DisplayColor.CommandLine

def machine : Surroundings IO where
  createFile path := do
    try
      IO.FS.writeFile path ""
      pure (.ok ())
    catch error => pure (.error (toString error))
  readFile path := do
    try
      let bytes ← IO.FS.readBinFile path
      pure (some (.ok bytes))
    catch
      | .noFileOrDirectory .. => pure none
      | error => pure (some (.error (toString error)))
  readVariable name := IO.getEnv name

def main (arguments : List String) : IO UInt32 := do
  let outcome ← run machine arguments
  IO.print outcome.output
  IO.eprint outcome.errors
  pure (UInt32.ofNat outcome.code)
