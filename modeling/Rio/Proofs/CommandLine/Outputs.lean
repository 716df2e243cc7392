import Mathlib.Data.List.Basic
import Rio.CommandLine.Session

/-!
# What a run leaves behind

A run is carried out here on a map of files, where a path is looked up as it is written and every
write succeeds. The inputs are dealt with in order, and each of them ends in one of three ways:
its script is written and complete, its script is written as far as it goes, or there is no script
to read and the run ends. What the files are afterwards is said without going through the run:

> `ScriptsWritten o profile inputs before after`: the output of each script is that of the last
> input with its name, as it was before, and all other files are as they were.

`perform_processInput` is the step. `perform_processInputs` is the run over inputs that can all be
read, whatever comes behind them, so that one more step tells how the run ends. No output may be
an input, since an input that is read later would then be another one. `run_outputs` is about
whole runs.
-/

namespace Rio.CommandLine

/-! ## Files by path -/

/-- Files by their paths. -/
abbrev FileMap := String → Option (List UInt8)

/-- The bytes of a text in a file. -/
def fileBytes (text : String) : List UInt8 :=
  text.toUTF8.data.toList

namespace FileMap

/-- The files after one was written. -/
def write (files : FileMap) (path text : String) : FileMap :=
  fun p => if p = path then some (fileBytes text) else files p

/-- The files after one was written, if a path is given for it. -/
def writeAt (files : FileMap) (path? : Option String) (text : String) : FileMap :=
  match path? with
  | some path => files.write path text
  | none => files

/-- Access to files in a map. There is always room for one more. -/
def access (readers : Charset.Readers) : FileAccess (StateM FileMap) where
  read path := return (← get) path
  write path text := do
    modify (·.write path text)
    return true
  createDir _ := return true
  readers

theorem access_readers (readers : Charset.Readers) : (access readers).readers = readers :=
  rfl

/-- The script at an input: its name and what it holds. -/
def script? (files : FileMap) (input : String) : Option (String × List UInt8) :=
  (scriptName? input).bind fun name => (files input).map fun bytes => (name, bytes)

theorem write_same (files : FileMap) (path text : String) :
    files.write path text path = some (fileBytes text) :=
  if_pos rfl

/-- Writing a file leaves the others as they are. -/
theorem write_of_ne (files : FileMap) {path p : String} (text : String) (h : p ≠ path) :
    files.write path text p = files p :=
  if_neg h

theorem writeAt_of_notMem (files : FileMap) {path? : Option String} {p : String} (text : String)
    (h : p ∉ path?) :
    files.writeAt path? text p = files p := by
  cases path? with
  | none => rfl
  | some path => exact write_of_ne files text fun heq => h (heq ▸ rfl)

/-- An input is a script if its path has a name and its file is there. -/
theorem script?_eq_some_iff {files : FileMap} {input name : String} {bytes : List UInt8} :
    files.script? input = some (name, bytes) ↔ scriptName? input = some name ∧
      files input = some bytes := by
  unfold script?
  cases scriptName? input with
  | none => simp
  | some n =>
    cases files input with
    | none => simp
    | some b => simp

end FileMap

/-! ## What is asked for -/

namespace Options

/-- Where the script with a name is written. -/
def output (o : Options) (name : String) : String :=
  joinPath (o.outDir.getD ".") (name ++ ".rpy")

/-- The files after the companion files were written. -/
def exported (o : Options) (profile : Profile) (files : FileMap) : FileMap :=
  (files.writeAt o.exportCharacters (Companion.characters profile)).writeAt o.exportFlags
    (Companion.flagNames profile)

/-- The profile in the settings file, or the default one if no file is given. -/
def settingsProfile? (o : Options) (readers : Charset.Readers) (files : FileMap) : Option Profile :=
  match o.settings with
  | none => some { readers }
  | some path =>
    match files path with
    | none => none
    | some bytes =>
      if Charset.Utf8.isWellFormed bytes then
        (Profile.load (String.ofList (Charset.Utf8.decode bytes)) readers).toOption
      else none

/-- The profile that is used. -/
def profile? (o : Options) (readers : Charset.Readers) (files : FileMap) : Option Profile :=
  (o.settingsProfile? readers files).map fun profile =>
    { profile with version := o.version.getD profile.version }

variable {o : Options}

/-- Scripts with different names are written to different files. -/
theorem output_inj {a b : String} (h : o.output a = o.output b) : a = b := by
  have hfile : a ++ ".rpy" = b ++ ".rpy" := by
    unfold output joinPath at h
    split at h
    · exact (String.append_right_inj _).mp h
    · exact (String.append_right_inj _).mp h
  exact (String.append_left_inj _).mp hfile

/-- Only the two files that are asked for are exported. -/
theorem exported_of_notMem {path : String} (hcharacters : path ∉ o.exportCharacters)
    (hflags : path ∉ o.exportFlags) (profile : Profile) (files : FileMap) :
    o.exported profile files path = files path := by
  unfold exported
  rw [FileMap.writeAt_of_notMem _ _ hflags, FileMap.writeAt_of_notMem _ _ hcharacters]

end Options

/-! ## Steps of a run -/

/-- What a step comes to, and the files after it. -/
def perform {α : Type} (step : Attempt (StateM FileMap) α) (files : FileMap) :
    Except Failure α × FileMap :=
  step.run.run files

section Perform

variable {α β : Type} {step : Attempt (StateM FileMap) α} {files after : FileMap}
  {readers : Charset.Readers}

/-- After a step that succeeds the next one starts with the files as they are then. -/
theorem perform_bind_ok {a : α} (h : perform step files = (.ok a, after))
    (next : α → Attempt (StateM FileMap) β) :
    perform (step >>= next) files = perform (next a) after := by
  have hrun : step.run.run files = pure (.ok a, after) := h
  unfold perform
  rw [ExceptT.run_bind, StateT.run_bind, hrun, pure_bind]

/-- A step that fails is the last one, and its files stay. -/
theorem perform_bind_error {failure : Failure} (h : perform step files = (.error failure, after))
    (next : α → Attempt (StateM FileMap) β) :
    perform (step >>= next) files = (.error failure, after) := by
  have hrun : step.run.run files = pure (.error failure, after) := h
  unfold perform
  rw [ExceptT.run_bind, StateT.run_bind, hrun, pure_bind]
  rfl

/-- What is computed from the result of a step touches no files. -/
theorem perform_bind_pure (step : Attempt (StateM FileMap) α) (f : α → β) (files : FileMap) :
    perform (step >>= fun a => pure (f a)) files = (perform step files).map (Except.map f) id := by
  rcases h : perform step files with ⟨_ | a, after⟩
  · exact perform_bind_error h _
  · exact perform_bind_ok h _

theorem perform_read (readers : Charset.Readers) (files : FileMap) (path : String) :
    perform (liftM ((FileMap.access readers).read path)) files = (.ok (files path), files) :=
  rfl

theorem perform_readFile_of_some {path : String} {bytes : List UInt8} (h : files path = some bytes)
    (failure : Failure) :
    perform (readFile (FileMap.access readers) path failure) files = (.ok bytes, files) := by
  have hread := perform_read readers files path
  rw [h] at hread
  exact perform_bind_ok hread _

/-- A file that is not there is the failure it was said to be. -/
theorem perform_readFile_of_none {path : String} (h : files path = none) (failure : Failure) :
    perform (readFile (FileMap.access readers) path failure) files = (.error failure, files) := by
  have hread := perform_read readers files path
  rw [h] at hread
  exact perform_bind_ok hread _

/-- On files that are a map nothing keeps a text from being written. -/
theorem perform_writeFile (files : FileMap) (path text : String) :
    perform (writeFile (FileMap.access readers) path text) files
      = (.ok (), files.write path text) :=
  rfl

end Perform

section Steps

variable {o : Options} {files : FileMap} {profile : Profile} {readers : Charset.Readers}

/-- The profile comes from its file if one is given, and its version from the options if they have
one. -/
theorem perform_loadProfile (h : o.profile? readers files = some profile) :
    perform (loadProfile (FileMap.access readers) o) files = (.ok profile, files) := by
  obtain ⟨base, hbase, rfl⟩ := Option.map_eq_some_iff.mp h
  unfold Options.settingsProfile? at hbase
  unfold loadProfile
  cases hsettings : o.settings with
  | none =>
    rw [hsettings] at hbase
    obtain rfl := Option.some.inj hbase
    rfl
  | some path =>
    rw [hsettings] at hbase
    dsimp only at hbase
    cases hbytes : files path with
    | none =>
      rw [hbytes] at hbase
      cases hbase
    | some bytes =>
      rw [hbytes] at hbase
      dsimp only at hbase
      split at hbase
      · next hwell =>
        refine (perform_bind_ok (perform_readFile_of_some hbytes _) _).trans ?_
        rw [if_neg (by rw [hwell]; decide), FileMap.access_readers]
        cases hload : Profile.load (String.ofList (Charset.Utf8.decode bytes)) readers with
        | error e =>
          rw [hload] at hbase
          cases hbase
        | ok p =>
          rw [hload] at hbase
          obtain rfl := Option.some.inj hbase
          rfl
      · cases hbase

/-- The companion files are written one after the other, each if it is asked for. -/
theorem perform_writeCompanions (o : Options) (profile : Profile) (files : FileMap) :
    perform (writeCompanions (FileMap.access readers) o profile) files
      = (.ok (), o.exported profile files) := by
  unfold writeCompanions Options.exported
  cases o.exportCharacters with
  | none =>
    cases o.exportFlags with
    | none => rfl
    | some path => rfl
  | some path =>
    cases o.exportFlags with
    | none => rfl
    | some path => rfl

/-- An input with a script: it is written, and its name is told if it is not complete. -/
theorem perform_processInput (hlisting : o.listing = false) {input name : String}
    {bytes : List UInt8} (h : files.script? input = some (name, bytes)) :
    perform (processInput (FileMap.access readers) o profile input) files
      = (.ok (if (transpile name bytes profile).isComplete then none else some name),
          files.write (o.output name) (transpile name bytes profile).text) := by
  obtain ⟨hname, hbytes⟩ := FileMap.script?_eq_some_iff.mp h
  refine (perform_bind_ok (perform_readFile_of_some hbytes _) _).trans ?_
  rw [hname, hlisting]
  exact perform_bind_ok (perform_writeFile ..) _

/-- An input without one ends the run. -/
theorem perform_processInput_of_none {input : String} (h : files.script? input = none) :
    ∃ failure, perform (processInput (FileMap.access readers) o profile input) files
      = (.error failure, files) := by
  cases hbytes : files input with
  | none => exact ⟨_, perform_bind_error (perform_readFile_of_none hbytes _) _⟩
  | some bytes =>
    have hname : scriptName? input = none := by
      unfold FileMap.script? at h
      rw [hbytes] at h
      cases hname : scriptName? input with
      | none => rfl
      | some name =>
        rw [hname] at h
        cases h
    refine ⟨.notAScript input, (perform_bind_ok (perform_readFile_of_some hbytes _) _).trans ?_⟩
    rw [hname]
    rfl

end Steps

/-! ## Runs -/

/-- The names of the scripts at inputs that come out incomplete. -/
def FileMap.incompleteScripts (files : FileMap) (profile : Profile) (inputs : List String) :
    List String :=
  inputs.filterMap fun input =>
    (files.script? input).bind fun script =>
      if (transpile script.1 script.2 profile).isComplete then none else some script.1

/-- The last of the inputs with a name. -/
def lastNamed? (inputs : List String) (name : String) : Option String :=
  inputs.reverse.find? fun input => scriptName? input == some name

/-- Each script is written as it is at the last input with its name, and nothing else is. -/
structure ScriptsWritten (o : Options) (profile : Profile) (inputs : List String)
    (before after : FileMap) : Prop where
  written : ∀ input ∈ inputs, ∀ name, scriptName? input = some name →
    ∃ last bytes, lastNamed? inputs name = some last ∧ before last = some bytes ∧
      after (o.output name) = some (fileBytes (transpile name bytes profile).text)
  kept : ∀ path, (∀ input ∈ inputs, ∀ name, scriptName? input = some name → path ≠ o.output name) →
    after path = before path

/-- How a call ends whose run comes to a result. -/
def Outcome.ofResult : Except Failure Unit → Outcome
  | .ok () => .done
  | .error failure => .failed failure

/-- No failure ends in the exit code of success. -/
theorem Outcome.exitCode_ofResult_error (failure : Failure) :
    (Outcome.ofResult (.error failure)).exitCode ≠ 0 := by
  change (1 : UInt32) ≠ 0
  decide

section Runs

variable {o : Options} {files after : FileMap} {profile : Profile} {readers : Charset.Readers}
  {input : String} {inputs : List String}

/-- The first input counts only if no later one has the name. -/
theorem lastNamed?_cons (input : String) (inputs : List String) (name : String) :
    lastNamed? (input :: inputs) name
      = (lastNamed? inputs name).or
        (if scriptName? input = some name then some input else none) := by
  unfold lastNamed?
  rw [List.reverse_cons, List.find?_append]
  by_cases h : scriptName? input = some name <;> simp [h]

theorem mem_of_lastNamed? {name last : String} (h : lastNamed? inputs name = some last) :
    last ∈ inputs :=
  List.mem_reverse.mp (List.mem_of_find?_eq_some h)

theorem lastNamed?_eq_none {name : String} (h : ∀ input ∈ inputs, scriptName? input ≠ some name) :
    lastNamed? inputs name = none :=
  List.find?_eq_none.mpr fun input hmem heq => h input (List.mem_reverse.mp hmem) (eq_of_beq heq)

/-- A script is still the same after another file was written. -/
theorem FileMap.script?_write_of_ne {path text : String} (h : input ≠ path) :
    (files.write path text).script? input = files.script? input := by
  unfold FileMap.script?
  rw [FileMap.write_of_ne files text h]

/-- Which scripts stay incomplete depends on the inputs only. -/
theorem FileMap.incompleteScripts_congr {other : FileMap}
    (h : ∀ input ∈ inputs, other.script? input = files.script? input) :
    other.incompleteScripts profile inputs = files.incompleteScripts profile inputs := by
  refine List.filterMap_congr fun input hmem => ?_
  rw [h input hmem]

/-- The first script is checked, then the others. -/
theorem FileMap.incompleteScripts_cons {name : String} {bytes : List UInt8}
    (h : files.script? input = some (name, bytes)) :
    files.incompleteScripts profile (input :: inputs)
      = (if (transpile name bytes profile).isComplete then none
        else some name : Option String).toList
          ++ files.incompleteScripts profile inputs := by
  unfold FileMap.incompleteScripts
  rw [List.filterMap_cons, h, Option.bind_some]
  by_cases hcomplete : (transpile name bytes profile).isComplete
  · rw [if_pos hcomplete]
    rfl
  · rw [if_neg hcomplete]
    rfl

/-- Without inputs no file changes. -/
theorem ScriptsWritten.nil (o : Options) (profile : Profile) (files : FileMap) :
    ScriptsWritten o profile [] files files where
  written _ hmem := absurd hmem List.not_mem_nil
  kept _ _ := rfl

/-- One more script in front: it stays only if no later input has its name. -/
theorem ScriptsWritten.cons {name : String} {bytes : List UInt8}
    (hscript : files.script? input = some (name, bytes)) (hfresh : o.output name ∉ inputs)
    (h : ScriptsWritten o profile inputs
      (files.write (o.output name) (transpile name bytes profile).text) after) :
    ScriptsWritten o profile (input :: inputs) files after := by
  obtain ⟨hname, hbytes⟩ := FileMap.script?_eq_some_iff.mp hscript
  constructor
  · intro other hother n hn
    -- a later input of the same name writes the same file, and its text is the one that stays
    by_cases hlater : ∃ i ∈ inputs, scriptName? i = some n
    · obtain ⟨i, hi, hin⟩ := hlater
      obtain ⟨last, content, hlast, hcontent, hafter⟩ := h.written i hi n hin
      have hne : last ≠ o.output name := by
        rintro rfl
        exact hfresh (mem_of_lastNamed? hlast)
      rw [FileMap.write_of_ne files _ hne] at hcontent
      exact ⟨last, content, by rw [lastNamed?_cons, hlast, Option.some_or], hcontent, hafter⟩
    · have hnone : ∀ i ∈ inputs, scriptName? i ≠ some n := fun i hi hin => hlater ⟨i, hi, hin⟩
      obtain rfl | hmem := List.mem_cons.mp hother
      · obtain rfl := Option.some.inj (hname.symm.trans hn)
        have hlast : lastNamed? (other :: inputs) name = some other := by
          rw [lastNamed?_cons, lastNamed?_eq_none hnone, if_pos hname, Option.none_or]
        refine ⟨other, bytes, hlast, hbytes, ?_⟩
        rw [h.kept (o.output name) fun i hi m hm heq => hnone i hi (Options.output_inj heq ▸ hm)]
        exact FileMap.write_same ..
      · exact absurd hn (hnone other hmem)
  · intro path hpath
    rw [h.kept path fun i hi => hpath i (List.mem_cons_of_mem input hi)]
    exact FileMap.write_of_ne files _ (hpath input List.mem_cons_self name hname)

/-- A run over inputs with scripts, whatever comes behind them. -/
theorem perform_processInputs (readers : Charset.Readers) (profile : Profile)
    (hlisting : o.listing = false) (hscripts : ∀ input ∈ inputs, (files.script? input).isSome)
    (hfresh : ∀ input ∈ inputs, ∀ name, scriptName? input = some name → o.output name ∉ inputs) :
    ∃ after, ScriptsWritten o profile inputs files after ∧ ∀ rest,
      perform (processInputs (FileMap.access readers) o profile (inputs ++ rest)) files
        = (perform (processInputs (FileMap.access readers) o profile rest) after).map
            (Except.map (files.incompleteScripts profile inputs ++ ·)) id := by
  induction inputs generalizing files with
  | nil =>
    refine ⟨files, .nil o profile files, fun rest => ?_⟩
    rw [List.nil_append]
    rcases perform (processInputs (FileMap.access readers) o profile rest) files with ⟨_ | _, final⟩
    · rfl
    · rfl
  | cons input inputs ih =>
    obtain ⟨⟨name, bytes⟩, hscript⟩ :=
      Option.isSome_iff_exists.mp (hscripts input List.mem_cons_self)
    have hname := (FileMap.script?_eq_some_iff.mp hscript).1
    have hout := hfresh input List.mem_cons_self name hname
    -- The others are read as if the first were not written.
    have hsame : ∀ i ∈ inputs,
        (files.write (o.output name) (transpile name bytes profile).text).script? i
          = files.script? i := fun i hi =>
      FileMap.script?_write_of_ne fun heq => hout (heq ▸ List.mem_cons_of_mem input hi)
    obtain ⟨after, hwritten, hrun⟩ := ih
      (fun i hi => (hsame i hi).symm ▸ hscripts i (List.mem_cons_of_mem input hi))
      (fun i hi n hn hmem => hfresh i (List.mem_cons_of_mem input hi) n hn
        (List.mem_cons_of_mem input hmem))
    refine ⟨after, hwritten.cons hscript fun hmem => hout (List.mem_cons_of_mem input hmem),
      fun rest => ?_⟩
    rw [FileMap.incompleteScripts_congr hsame] at hrun
    rw [List.cons_append, processInputs, perform_bind_ok (perform_processInput hlisting hscript),
      perform_bind_pure, hrun rest, FileMap.incompleteScripts_cons hscript]
    rcases perform (processInputs (FileMap.access readers) o profile rest) after
      with ⟨_ | names, final⟩
    · rfl
    · simp only [Prod.map, Except.map, List.append_assoc, id]

/-- An input without a script ends the run where it stands. -/
theorem perform_processInputs_of_none (o : Options) (profile : Profile) {bad : String}
    (hbad : files.script? bad = none) (rest : List String) :
    ∃ failure, perform (processInputs (FileMap.access readers) o profile (bad :: rest)) files
      = (.error failure, files) := by
  obtain ⟨failure, h⟩ := perform_processInput_of_none hbad
  exact ⟨failure, perform_bind_error h _⟩

/-- With a profile and inputs, a run writes the companion files, goes through the inputs, and fails
if a script stayed incomplete. -/
theorem perform_runOptions (hinputs : o.inputs ≠ [])
    (hprofile : o.profile? readers files = some profile) :
    perform (runOptions (FileMap.access readers) o) files
      = perform (processInputs (FileMap.access readers) o profile o.inputs >>= fun incomplete =>
          unless incomplete.isEmpty do throw (.incomplete incomplete))
            (o.exported profile files) := by
  have hsome : ¬ o.inputs.isEmpty = true := fun h => hinputs (List.isEmpty_iff.mp h)
  unfold runOptions
  rw [perform_bind_ok (perform_loadProfile hprofile), perform_bind_ok (perform_writeCompanions ..),
    if_neg hsome]
  rfl

/-- With arguments that can be read, the outcome of a run is that of its steps. -/
theorem run_eq {arguments : List String} (hparse : Options.parse arguments = .ok o)
    (files : FileMap) :
    (run (FileMap.access readers) arguments).run files
      = (perform (runOptions (FileMap.access readers) o) files).map Outcome.ofResult id := by
  have hrun : (runOptions (FileMap.access readers) o).run.run files
      = pure (perform (runOptions (FileMap.access readers) o) files) := rfl
  unfold run
  rw [hparse]
  dsimp only
  rw [StateT.run_bind, hrun, pure_bind]
  rcases perform (runOptions (FileMap.access readers) o) files with ⟨_ | _, after⟩
  · rfl
  · rfl

/-- A name is listed for each script that is translated in part only. -/
theorem incompleteScripts_ne_nil_iff :
    files.incompleteScripts profile inputs ≠ [] ↔ ∃ input ∈ inputs, ∃ name bytes,
      files.script? input = some (name, bytes) ∧ ¬ (transpile name bytes profile).isComplete := by
  constructor
  · intro h
    obtain ⟨name, hname⟩ := List.exists_mem_of_ne_nil _ h
    obtain ⟨input, hinput, hscript⟩ := List.mem_filterMap.mp hname
    obtain ⟨⟨n, bytes⟩, hread, hpart⟩ := Option.bind_eq_some_iff.mp hscript
    refine ⟨input, hinput, n, bytes, hread, fun hcomplete => ?_⟩
    rw [if_pos hcomplete] at hpart
    cases hpart
  · rintro ⟨input, hinput, name, bytes, hread, hpart⟩
    refine List.ne_nil_of_mem (a := name) (List.mem_filterMap.mpr ⟨input, hinput, ?_⟩)
    rw [hread, Option.bind_some, if_neg hpart]

section Calls

variable {arguments : List String} {outcome : Outcome} (hparse : Options.parse arguments = .ok o)
  (hlisting : o.listing = false) (hinputs : o.inputs ≠ [])
  (hprofile : o.profile? readers files = some profile)
  (hfresh : ∀ input ∈ o.inputs, ∀ name, scriptName? input = some name → o.output name ∉ o.inputs)
  (hrun : (run (FileMap.access readers) arguments).run files = (outcome, after))

include hparse hlisting hinputs hprofile hfresh hrun

/-- If every input is a script then all outputs are written, and the exit code tells whether one is
incomplete. -/
theorem run_of_scripts
    (hscripts : ∀ input ∈ o.inputs, ((o.exported profile files).script? input).isSome) :
    ScriptsWritten o profile o.inputs (o.exported profile files) after ∧
      (outcome.exitCode ≠ 0
        ↔ (o.exported profile files).incompleteScripts profile o.inputs ≠ []) := by
  obtain ⟨final, hwritten, hinputsRun⟩ :=
    perform_processInputs readers profile hlisting hscripts hfresh
  have hall : perform (processInputs (FileMap.access readers) o profile (o.inputs ++ []))
      (o.exported profile files)
        = (.ok ((o.exported profile files).incompleteScripts profile o.inputs ++ []), final) :=
    hinputsRun []
  rw [List.append_nil, List.append_nil] at hall
  rw [run_eq hparse, perform_runOptions hinputs hprofile, perform_bind_ok hall] at hrun
  cases hnames : (o.exported profile files).incompleteScripts profile o.inputs with
  | nil =>
    rw [hnames] at hrun
    cases hrun
    exact ⟨hwritten, by decide⟩
  | cons name names =>
    rw [hnames] at hrun
    cases hrun
    exact ⟨hwritten, iff_of_true (Outcome.exitCode_ofResult_error _) (List.cons_ne_nil name names)⟩

/-- The first input that is no script ends the run: the outputs before it are written, nothing after
it is, and the exit code is not zero. -/
theorem run_of_unreadable {front rest : List String} {bad : String}
    (hsplit : o.inputs = front ++ bad :: rest)
    (hscripts : ∀ input ∈ front, ((o.exported profile files).script? input).isSome)
    (hbad : (o.exported profile files).script? bad = none) :
    ScriptsWritten o profile front (o.exported profile files) after ∧ outcome.exitCode ≠ 0 := by
  have hmem : ∀ input ∈ front, input ∈ o.inputs := fun input h => hsplit ▸ List.mem_append_left _ h
  have hbadMem : bad ∈ o.inputs := hsplit ▸ List.mem_append_right front List.mem_cons_self
  obtain ⟨final, hwritten, hinputsRun⟩ := perform_processInputs readers profile hlisting hscripts
    fun input h name hname hout => hfresh input (hmem input h) name hname (hmem _ hout)
  have hkept : final bad = o.exported profile files bad := by
    refine hwritten.kept bad fun input h name hname heq => ?_
    exact hfresh input (hmem input h) name hname (heq ▸ hbadMem)
  have hnone : final.script? bad = none := by
    unfold FileMap.script? at hbad ⊢
    rw [hkept, hbad]
  obtain ⟨failure, hfailure⟩ := perform_processInputs_of_none o profile hnone rest
  specialize hinputsRun (bad :: rest)
  rw [← hsplit, hfailure] at hinputsRun
  rw [run_eq hparse, perform_runOptions hinputs hprofile, perform_bind_error hinputsRun] at hrun
  cases hrun
  exact ⟨hwritten, Outcome.exitCode_ofResult_error failure⟩

end Calls

end Runs

/-- A run in which no output is an input. If there is a script at every input, then each of them
is written, as far as it could be translated, and the call fails if one of them is not complete.
If there is none at some input, then the scripts at the inputs before the first such input are
written, and the call fails. Nothing else is written than these scripts and the companion
files. -/
theorem run_outputs {arguments : List String} {o : Options} {readers : Charset.Readers}
    {files : FileMap} {profile : Profile} (hparse : Options.parse arguments = .ok o)
    (hlisting : o.listing = false) (hinputs : o.inputs ≠ [])
    (hprofile : o.profile? readers files = some profile)
    (hfresh : ∀ input ∈ o.inputs, ∀ name, scriptName? input = some name →
      o.output name ∉ o.inputs) :
    ∃ outcome before after, (run (FileMap.access readers) arguments).run files = (outcome, after) ∧
      before = o.exported profile files ∧
      (∀ path, path ∉ o.exportCharacters → path ∉ o.exportFlags → before path = files path) ∧
      ((∀ input ∈ o.inputs, (before.script? input).isSome) →
        ScriptsWritten o profile o.inputs before after ∧
        (outcome.exitCode ≠ 0 ↔ ∃ input ∈ o.inputs, ∃ name bytes,
          before.script? input = some (name, bytes) ∧
          ¬ (transpile name bytes profile).isComplete)) ∧
      ∀ front bad rest, o.inputs = front ++ bad :: rest →
        (∀ input ∈ front, (before.script? input).isSome) →
        before.script? bad = none → ScriptsWritten o profile front before after ∧
          outcome.exitCode ≠ 0 := by
  obtain ⟨outcome, after, hrun⟩ : ∃ outcome after,
      (run (FileMap.access readers) arguments).run files = (outcome, after) :=
    ⟨_, _, rfl⟩
  refine ⟨outcome, _, after, hrun, rfl, fun path hcharacters hflags => ?_, fun hscripts => ?_,
    fun front bad rest hsplit hscripts hbad => ?_⟩
  · exact Options.exported_of_notMem hcharacters hflags profile files
  · obtain ⟨hwritten, hexit⟩ := run_of_scripts hparse hlisting hinputs hprofile hfresh hrun hscripts
    exact ⟨hwritten, hexit.trans incompleteScripts_ne_nil_iff⟩
  · exact run_of_unreadable hparse hlisting hinputs hprofile hfresh hrun hsplit hscripts hbad

/-- Two scripts with one name, and one whose jump leads to minus one. -/
def scriptFiles : FileMap := fun path =>
  if path = "one/a.wsc" then some [0x54, 0x6d, 0]
  else if path = "b.wsc" then some [0x06, 0xff, 0xff, 0xff, 0xff, 0]
  else if path = "two/a.wsc" then some [0x54, 0x6e, 0]
  else none

/-- In the first call the script with the jump is not complete, so the call fails; it is written
nonetheless, and so is the one behind it, which replaces the other one with its name. In the second
call there is no script at the second input, so the call fails and the third one is not written. -/
theorem run_outputs_incomplete :
    (∃ outcome after,
      (run (FileMap.access .ascii) ["-o", "out", "one/a.wsc", "b.wsc", "two/a.wsc"]).run scriptFiles
        = (outcome, after) ∧
      outcome.exitCode ≠ 0 ∧
      after "out/a.rpy" = some (fileBytes (transpile "a" [0x54, 0x6e, 0] {}).text) ∧
      after "out/b.rpy"
        = some (fileBytes (transpile "b" [0x06, 0xff, 0xff, 0xff, 0xff, 0] {}).text) ∧
      after "one/a.wsc" = some [0x54, 0x6d, 0]) ∧
    ∃ outcome after,
      (run (FileMap.access .ascii) ["-o", "out", "one/a.wsc", "c.wsc", "b.wsc"]).run scriptFiles
        = (outcome, after) ∧
      outcome.exitCode ≠ 0 ∧
      after "out/a.rpy" = some (fileBytes (transpile "a" [0x54, 0x6d, 0] {}).text) ∧
      after "out/b.rpy" = none := by
  constructor
  · have hfresh : ∀ input ∈ ["one/a.wsc", "b.wsc", "two/a.wsc"], ∀ name ∈ scriptName? input,
        Options.output { outDir := some "out" } name ∉ ["one/a.wsc", "b.wsc", "two/a.wsc"] := by
      decide +kernel
    have hparse : Options.parse ["-o", "out", "one/a.wsc", "b.wsc", "two/a.wsc"]
        = .ok { outDir := some "out", inputs := ["one/a.wsc", "b.wsc", "two/a.wsc"] } := by
      decide +kernel
    have hprofile : Options.profile?
        { outDir := some "out", inputs := ["one/a.wsc", "b.wsc", "two/a.wsc"] }
          .ascii scriptFiles = some {} :=
      rfl
    obtain ⟨outcome, before, after, hrun, rfl, -, hscripts, -⟩ :=
      run_outputs hparse rfl (by decide) hprofile hfresh
    obtain ⟨hwritten, hexit⟩ := hscripts (by decide +kernel)
    refine ⟨outcome, after, hrun, hexit.mpr ⟨"b.wsc", by decide, "b", _, rfl, by decide +kernel⟩,
      ?_, ?_, ?_⟩
    · obtain ⟨last, bytes, hlast, hbytes, hafter⟩ :=
        hwritten.written "one/a.wsc" (by decide) "a" (by decide +kernel)
      obtain rfl : "two/a.wsc" = last := Option.some.inj hlast
      obtain rfl : [0x54, 0x6e, 0] = bytes := Option.some.inj hbytes
      exact hafter
    · obtain ⟨last, bytes, hlast, hbytes, hafter⟩ :=
        hwritten.written "b.wsc" (by decide) "b" (by decide +kernel)
      obtain rfl : "b.wsc" = last := Option.some.inj hlast
      obtain rfl : [0x06, 0xff, 0xff, 0xff, 0xff, 0] = bytes := Option.some.inj hbytes
      exact hafter
    · have hother : ∀ input ∈ ["one/a.wsc", "b.wsc", "two/a.wsc"], ∀ name ∈ scriptName? input,
          "one/a.wsc" ≠ Options.output { outDir := some "out" } name := by
        decide +kernel
      exact hwritten.kept "one/a.wsc" hother
  · have hfresh : ∀ input ∈ ["one/a.wsc", "c.wsc", "b.wsc"], ∀ name ∈ scriptName? input,
        Options.output { outDir := some "out" } name ∉ ["one/a.wsc", "c.wsc", "b.wsc"] := by
      decide +kernel
    have hparse : Options.parse ["-o", "out", "one/a.wsc", "c.wsc", "b.wsc"]
        = .ok { outDir := some "out", inputs := ["one/a.wsc", "c.wsc", "b.wsc"] } := by
      decide +kernel
    have hprofile : Options.profile?
        { outDir := some "out", inputs := ["one/a.wsc", "c.wsc", "b.wsc"] }
          .ascii scriptFiles = some {} :=
      rfl
    obtain ⟨outcome, before, after, hrun, rfl, -, -, hunreadable⟩ :=
      run_outputs hparse rfl (by decide) hprofile hfresh
    obtain ⟨hwritten, hexit⟩ :=
      hunreadable ["one/a.wsc"] "c.wsc" ["b.wsc"] rfl (by decide +kernel) (by decide +kernel)
    refine ⟨outcome, after, hrun, hexit, ?_, ?_⟩
    · obtain ⟨last, bytes, hlast, hbytes, hafter⟩ :=
        hwritten.written "one/a.wsc" (by decide) "a" (by decide +kernel)
      obtain rfl : "one/a.wsc" = last := Option.some.inj hlast
      obtain rfl : [0x54, 0x6d, 0] = bytes := Option.some.inj hbytes
      exact hafter
    · have hother : ∀ input ∈ ["one/a.wsc"], ∀ name ∈ scriptName? input,
          "out/b.rpy" ≠ Options.output { outDir := some "out" } name := by
        decide +kernel
      exact hwritten.kept "out/b.rpy" hother

end Rio.CommandLine
