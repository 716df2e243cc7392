import Rio.Charset.Utf8
import Rio.Companion
import Rio.CommandLine.Options
import Rio.Profile.Load
import Rio.Transpile

/-!
# A run of the program

A run reads a profile, writes the companion files that are asked for, and then deals with the
inputs one after another. What cannot be read or written ends it; a script that comes out
incomplete does not. Files are reached through an interface, so that a run can be carried out on a
real disk and on a modelled one.
-/

namespace Rio.CommandLine

/-- Access to files. Reading gives nothing where it fails; the others tell whether they
succeeded. -/
structure FileAccess (m : Type → Type) where
  read : String → m (Option (List UInt8))
  write : String → String → m Bool
  createDir : String → m Bool
  /-- How scripts in encodings without a table are read. -/
  readers : Charset.Readers := .ascii

/-- Why a run ends early or without full success. -/
inductive Failure where
  | readSettings (path : String)
  | loadSettings (path : String)
  | noInput
  | createOutDir
  | readInput (path : String)
  | notAScript (path : String)
  | writeOutput (path : String)
  /-- Scripts that came out incomplete. -/
  | incomplete (names : List String)
deriving Repr, DecidableEq

/-- What is said of a failure. -/
def Failure.message : Failure → String
  | readSettings path => "Failed to read settings " ++ path
  | loadSettings path => "Failed to load settings " ++ path
  | noInput => "No input specified"
  | createOutDir => "Failed to create output directory"
  | readInput path => "Failed to read " ++ path
  | notAScript path => path ++ " is not a script file"
  | writeOutput path => "Failed to write " ++ path
  | incomplete names =>
    toString names.length ++ " script(s) translated incompletely: " ++ ", ".intercalate names

/-- How a call of the program ends. -/
inductive Outcome where
  | done
  | failed (f : Failure)
  | stopped (s : Stop)
deriving Repr, DecidableEq

/-- The exit status of an outcome. -/
def Outcome.exitCode : Outcome → UInt32
  | done => 0
  | failed _ => 1
  | stopped .usage => 2
  | stopped .help | stopped .version => 0

/-! ## Paths -/

/-- The parts of a path between its slashes, without those that stand for the folder they are in. -/
def pathParts (path : String) : List String :=
  ((path.toList.splitOn '/').map String.ofList).filter fun part => part != "" && part != "."

/-- A file's name up to its last dot; a dot at the start does not count. -/
def stem (name : String) : String :=
  let cut := name.toList.reverse.dropWhile (· != '.')
  match cut with
  | [] | [_] => name
  | _ :: front => String.ofList front.reverse

/-- The name of the script in a file. -/
def scriptName? (path : String) : Option String :=
  match (pathParts path).getLast? with
  | some ".." => none
  | some name => some (stem name)
  | none => none

/-- A file in a folder. -/
def joinPath (folder file : String) : String :=
  if folder.toList.getLast? == some '/' then folder ++ file else folder ++ "/" ++ file

/-! ## Runs -/

section

variable {m : Type → Type} [Monad m]

/-- A step that may end the run. -/
abbrev Attempt (m : Type → Type) := ExceptT Failure m

/-- Reads a file. -/
def readFile (files : FileAccess m) (path : String) (failure : Failure) :
    Attempt m (List UInt8) := do
  match ← (files.read path : m _) with
  | some bytes => return bytes
  | none => throw failure

/-- Writes a file. -/
def writeFile (files : FileAccess m) (path text : String) : Attempt m Unit := do
  unless ← (files.write path text : m _) do throw (.writeOutput path)

/-- The profile that a run uses; a version given in the call wins over the one in the file. -/
def loadProfile (files : FileAccess m) (o : Options) : Attempt m Profile := do
  let profile ←
    match o.settings with
    | none => pure { readers := files.readers }
    | some path =>
      let bytes ← readFile files path (.readSettings path)
      if !Charset.Utf8.isWellFormed bytes then throw (.readSettings path)
      match Profile.load (String.ofList (Charset.Utf8.decode bytes)) files.readers with
      | .ok profile => pure profile
      | .error _ => throw (.loadSettings path)
  return { profile with version := o.version.getD profile.version }

/-- Writes the companion files that are asked for. -/
def writeCompanions (files : FileAccess m) (o : Options) (profile : Profile) : Attempt m Unit := do
  if let some path := o.exportCharacters then writeFile files path (Companion.characters profile)
  if let some path := o.exportFlags then writeFile files path (Companion.flagNames profile)

/-- Deals with one input, and gives the name of a script that came out incomplete. -/
def processInput (files : FileAccess m) (o : Options) (profile : Profile) (input : String) :
    Attempt m (Option String) := do
  let script ← readFile files input (.readInput input)
  match scriptName? input with
  | none => throw (.notAScript input)
  | some name =>
    let outDir := o.outDir.getD "."
    if o.listing then
      writeFile files (joinPath outDir (name ++ ".txt")) (disassemble script profile)
      return none
    else
      let play := transpile name script profile
      writeFile files (joinPath outDir (name ++ ".rpy")) play.text
      return if play.isComplete then none else some name

/-- Deals with the inputs in order, and gives the names of the scripts that came out incomplete. -/
def processInputs (files : FileAccess m) (o : Options) (profile : Profile) :
    List String → Attempt m (List String)
  | [] => return []
  | input :: inputs => do
    let first ← processInput files o profile input
    let others ← processInputs files o profile inputs
    return first.toList ++ others

/-- A run with options that make sense. -/
def runOptions (files : FileAccess m) (o : Options) : Attempt m Unit := do
  let profile ← loadProfile files o
  writeCompanions files o profile
  if o.inputs.isEmpty then
    if o.exportCharacters.isNone && o.exportFlags.isNone then throw .noInput
  else
    unless ← (files.createDir (o.outDir.getD ".") : m _) do throw .createOutDir
    let incomplete ← processInputs files o profile o.inputs
    unless incomplete.isEmpty do throw (.incomplete incomplete)

/-- A call of the program. -/
def run (files : FileAccess m) (arguments : List String) : m Outcome := do
  match Options.parse arguments with
  | .error stop => return .stopped stop
  | .ok o =>
    match ← (runOptions files o).run with
    | .ok () => return .done
    | .error failure => return .failed failure

end

end Rio.CommandLine
