import Rio.Profile.Load
import Rio.Transpile

/-!
# Use inside another program

The library as a host program calls it: names and texts in, texts out.
-/

namespace Rio.Embedding

/-- What the embedded library calls itself. -/
def version : String := "rio2rpy-wasm 0.1.0"

/-- A generated script as a host sees it. -/
structure Result where
  text : String
  /-- Why the script is incomplete, if it is. -/
  error : Option String
deriving Repr, DecidableEq

/-- Whether the script is complete. -/
def Result.isComplete (r : Result) : Bool :=
  r.error.isNone

/-- The result of a compiled script under a profile. -/
def transpile (name : String) (script : List UInt8) (profile : Profile) : Result :=
  let play := Rio.transpile name script profile
  { text := play.text
    error := play.fault.map fun fault =>
      "translation of " ++ name ++ " is incomplete: " ++ fault.message }

/-- The profile that a host asks for by a version alone. -/
def profileOf (version : Option Version) : Profile :=
  { version := version.getD .standard }

end Rio.Embedding
