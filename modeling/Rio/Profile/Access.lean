import Rio.Profile.Basic

/-!
# Access to flags

Scripts number their flags. An address becomes an expression through the bank that keeps it, by name
if the flag has one, unless the profile keeps the script from using it.
-/

namespace Rio

/-- What the use of a flag comes to. -/
inductive FlagAccess where
  /-- The expression that stands for the flag. -/
  | granted (reference : String)
  /-- Dropped. -/
  | excluded
  /-- Dropped, with the expression for a comment. -/
  | hinted (reference : String)
  /-- No bank keeps the flag. -/
  | unmapped
deriving Repr, DecidableEq

namespace Profile

/-- The place of a flag in its bank, by name if it has one. -/
def referenceIn (bank : FlagBank) (addr : Nat) (name : Option String) : String :=
  match name with
  | some name => bank.name ++ "['" ++ name ++ "']"
  | none => bank.name ++ "[" ++ toString addr ++ "]"

/-- The use of the flag at an address. -/
def access (p : Profile) (addr : Nat) : FlagAccess :=
  match p.bankFor? addr, p.flag? addr with
  | none, _ => .unmapped
  | some bank, none => .granted (referenceIn bank addr none)
  | some bank, some entry =>
    match entry.policy with
    | .allow => .granted (referenceIn bank addr entry.name)
    | .exclude => .excluded
    | .hint => .hinted (referenceIn bank addr entry.name)

/-- All banks as one mapping, the first one outermost. -/
def combinedBanks (p : Profile) : String :=
  match p.flagBanks with
  | [] => ""
  | bank :: banks => bank.name ++ String.join (banks.map fun b => ".map_(" ++ b.name ++ ")")

/-- The use of the flag whose address is held by the flag at an address. -/
def accessThrough (p : Profile) (addr : Nat) : FlagAccess :=
  match p.access addr with
  | .granted reference => .granted (p.combinedBanks ++ "[" ++ reference ++ "]")
  | other => other

end Profile

end Rio
