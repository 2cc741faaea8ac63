import Spreadsheet.CommandLine

/-!
The command-line program.
-/

open Spreadsheet CommandLine

/-- Reads a file, or tells why it cannot be read. -/
def readGrid (path : String) : IO (Except String String) := do
  try
    return .ok (← IO.FS.readFile path)
  catch _ =>
    return .error "No such file or directory (os error 2)"

def main (args : List String) : IO UInt32 := do
  match request? args with
  | none =>
    IO.eprintln "usage: eval|shared|refs FORMULA"
    return 2
  | some request =>
    let file ← match request.file? with
      | some path => readGrid path
      | none => pure (.ok "")
    let outcome := request.run fun _ => file
    IO.print outcome.stdout
    IO.eprint outcome.stderr
    return outcome.code.toUInt32
