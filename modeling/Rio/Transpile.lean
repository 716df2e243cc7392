import Rio.BlockGraph.Build
import Rio.Screenplay.Run

/-!
# From scripts to screenplays

A compiled script is decoded, divided into blocks and written out as a screenplay. None of this
fails; a screenplay that could not be finished says so.
-/

namespace Rio

/-- The screenplay of a compiled script. The name, usually that of its file, becomes its label. -/
def transpile (name : String) (script : List UInt8) (profile : Profile) : Screenplay :=
  let instructions := Bytecode.decode profile.version true script
  let play := Screenplay.ofInstructions name instructions (BlockGraph.build instructions) profile
  { play with
    records :=
      Bytecode.decodeRecords profile.version script instructions ++
        BlockGraph.buildRecords instructions ++ play.records }

/-- The listing of a compiled script, a line for each instruction. -/
def disassemble (script : List UInt8) (profile : Profile) : String :=
  listing profile.charset (Bytecode.decode profile.version true script) profile.readers

end Rio
