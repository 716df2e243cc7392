import Rio.CommandLine.Session

/-!
# The command line

Carries out a call of the program on the real disk.
-/

open Rio.CommandLine

namespace Rio.Main

/-- Runs an action and gives nothing if it fails. -/
def attempt? {α : Type} (action : IO α) : IO (Option α) := do
  match ← action.toBaseIO with
  | .ok a => return some a
  | .error _ => return none

/-- Access to the real disk. -/
def files : FileAccess IO where
  read path := do
    return (← attempt? (IO.FS.readBinFile path)).map (·.data.toList)
  write path text := do
    return (← attempt? (IO.FS.writeFile path text)).isSome
  createDir path := do
    return (← attempt? (IO.FS.createDirAll path)).isSome

/-- What is shown for `--help`. -/
def usage : String :=
  "Usage: rio2rpy [OPTIONS] [INPUTS]...\n\n" ++
  "  -o, --out-dir <DIR>              Output directory\n" ++
  "      --settings <FILE>            Title settings (JSON)\n" ++
  "      --opcode-version <VERSION>   Opcode table version (default, ymk, io)\n" ++
  "      --disasm                     Write listings instead of scripts\n" ++
  "      --export-characters <FILE>   Write the character definitions\n" ++
  "      --export-flags <FILE>        Write the flag name table\n" ++
  "  -v, --verbose                    Verbose output\n" ++
  "  -q, --quiet                      Report only through the exit status\n" ++
  "  -h, --help                       Print help\n" ++
  "  -V, --version                    Print version"

/-- Tells how a call ended. -/
def conclude : Outcome → IO Unit
  | .done => return
  | .failed f => IO.eprintln ("Error: " ++ f.message)
  | .stopped .usage => IO.eprintln usage
  | .stopped .help => IO.println usage
  | .stopped .version => IO.println "rio2rpy 0.1.0"

end Rio.Main

/-- The program. -/
def main (arguments : List String) : IO UInt32 := do
  let outcome ← run Rio.Main.files arguments
  Rio.Main.conclude outcome
  return outcome.exitCode
