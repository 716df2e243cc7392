/-!
# Labels

The places a generated script can be entered at. Names are upper case; a script has a label of its
own, one for each address that it jumps to, and one for the end of each range of scenes it skips.
-/

namespace Rio.Renpy

/-- A label of a generated script. -/
inductive Label where
  | script (name : String)
  | address (name : String) (addr : Nat)
  | skipEnd (name : String) (index : Nat)
deriving Repr, DecidableEq

/-- The label as it is written. -/
def Label.text : Label → String
  | script name => "RIO_" ++ name
  | address name addr => "RIO_" ++ name ++ "_" ++ toString addr
  | skipEnd name index => "RIO_" ++ name ++ "_skip_" ++ toString index ++ "_end"

end Rio.Renpy
