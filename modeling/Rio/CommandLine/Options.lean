import Rio.Bytecode.Table

/-!
# Command-line options

Options may be written `--name value` or `--name=value`, short ones also `-n value`, `-nvalue` or
in one cluster with others. After `--` everything is an input. An option may be given once. The
arguments are read in order, and the first one that settles the matter wins.
-/

namespace Rio.CommandLine

/-- What a call of the program asks for. -/
structure Options where
  inputs : List String := []
  outDir : Option String := none
  settings : Option String := none
  version : Option Version := none
  listing : Bool := false
  exportCharacters : Option String := none
  exportFlags : Option String := none
  verbose : Bool := false
  quiet : Bool := false
deriving Repr, DecidableEq

/-- Options that stand alone. -/
inductive Switch where
  | listing
  | verbose
  | quiet
  | help
  | version
deriving Repr, DecidableEq

/-- Options that take a value. -/
inductive Setting where
  | outDir
  | settings
  | version
  | exportCharacters
  | exportFlags
deriving Repr, DecidableEq

/-- An option. -/
inductive OptionKind where
  | switch (s : Switch)
  | setting (s : Setting)
deriving Repr, DecidableEq

/-- Why no run takes place. -/
inductive Stop where
  /-- The arguments make no sense. -/
  | usage
  | help
  | version
deriving Repr, DecidableEq

/-- The option with a long name. -/
def longOption? (name : String) : Option OptionKind :=
  [("out-dir", .setting .outDir), ("settings", .setting .settings),
   ("opcode-version", .setting .version), ("disasm", .switch .listing),
   ("export-characters", .setting .exportCharacters), ("export-flags", .setting .exportFlags),
   ("verbose", .switch .verbose), ("quiet", .switch .quiet), ("help", .switch .help),
   ("version", .switch .version)].lookup name

/-- The option with a short name. -/
def shortOption? (name : Char) : Option OptionKind :=
  [('o', .setting .outDir), ('v', .switch .verbose), ('q', .switch .quiet), ('h', .switch .help),
   ('V', .switch .version)].lookup name

/-- Sets a path that is not set yet. An empty one is no path. -/
def setPath (old : Option String) (value : String) : Except Stop (Option String) :=
  if old.isNone && !value.isEmpty then .ok (some value) else .error .usage

/-- Sets an option that takes a value. -/
def Options.set (o : Options) (value : String) : Setting → Except Stop Options
  | .outDir => do return { o with outDir := ← setPath o.outDir value }
  | .settings => do return { o with settings := ← setPath o.settings value }
  | .exportCharacters => do return { o with exportCharacters := ← setPath o.exportCharacters value }
  | .exportFlags => do return { o with exportFlags := ← setPath o.exportFlags value }
  | .version =>
    match o.version, Version.ofName? value with
    | none, some version => .ok { o with version := some version }
    | _, _ => .error .usage

/-- Sets an option that stands alone. -/
def Options.switch (o : Options) : Switch → Except Stop Options
  | .listing => if o.listing then .error .usage else .ok { o with listing := true }
  | .verbose => if o.verbose then .error .usage else .ok { o with verbose := true }
  | .quiet => if o.quiet then .error .usage else .ok { o with quiet := true }
  | .help => .error .help
  | .version => .error .version

/-- Adds an input. -/
def Options.addInput (o : Options) (path : String) : Except Stop Options :=
  if path.isEmpty then .error .usage else .ok { o with inputs := o.inputs ++ [path] }

/-- Reads a cluster of short options. The setting that a cluster ends in may wait for its value in
the next argument. -/
def readCluster (o : Options) : List Char → Except Stop (Options × Option Setting)
  | [] => .ok (o, none)
  | c :: rest =>
    match shortOption? c, rest with
    | none, _ => .error .usage
    | some (.switch s), _ => do readCluster (← o.switch s) rest
    | some (.setting s), [] => .ok (o, some s)
    | some (.setting s), '=' :: value => do return (← o.set (String.ofList value) s, none)
    | some (.setting s), value => do return (← o.set (String.ofList value) s, none)

/-- Reads a long option, given without its dashes. A setting may wait for its value in the next
argument; an option that stands alone takes none. -/
def readLong (o : Options) (argument : List Char) : Except Stop (Options × Option Setting) :=
  let name := String.ofList (argument.takeWhile (· != '='))
  match longOption? name, argument.dropWhile (· != '=') with
  | none, _ => .error .usage
  | some (.switch s), [] => do return (← o.switch s, none)
  | some (.switch _), _ => .error .usage
  | some (.setting s), [] => .ok (o, some s)
  | some (.setting s), _ :: value => do return (← o.set (String.ofList value) s, none)

/-- Reads one argument that is no value. -/
def readArgument (o : Options) (argument : String) : Except Stop (Options × Option Setting) :=
  match argument.toList with
  | '-' :: '-' :: name => readLong o name
  | '-' :: c :: cluster => readCluster o (c :: cluster)
  | _ => do return (← o.addInput argument, none)

/-- Whether an argument cannot be the value of the option before it. -/
def isOptionLike (argument : String) : Bool :=
  match argument.toList with
  | '-' :: _ :: _ => true
  | _ => false

/-- Reads arguments one after another; `waiting` is a setting whose value comes next. -/
def readArguments (o : Options) (waiting : Option Setting) : List String → Except Stop Options
  | [] => if waiting.isSome then .error .usage else .ok o
  | argument :: rest =>
    match waiting with
    | some s =>
      if isOptionLike argument then .error .usage
      else do readArguments (← o.set argument s) none rest
    | none =>
      if argument == "--" then rest.foldlM (fun o path => o.addInput path) o
      else do
        let (o, waiting) ← readArgument o argument
        readArguments o waiting rest

/-- Reads the arguments of a call. Being told everything and nothing at once makes no sense. -/
def Options.parse (arguments : List String) : Except Stop Options := do
  let o ← readArguments {} none arguments
  if o.verbose && o.quiet then .error .usage else return o

end Rio.CommandLine
