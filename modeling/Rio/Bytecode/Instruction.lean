import Rio.Bytecode.Mnemonic
import Rio.Bytecode.Transition

/-!
# Instructions

An instruction as it stands in a script: where it is, how many bytes it takes, what it does and its
operands. Markers take no bytes and stand for no operation.
-/

namespace Rio

/-- One choice of a menu. -/
structure MenuOption where
  textId : Int
  /-- The wording, in the script's encoding. -/
  text : List UInt8
  unknown1 : Nat
  /-- The flag that decides whether the choice is offered. -/
  flag : Nat
  unknown2 : Nat
  /-- The script that the choice leads to. -/
  target : List UInt8
deriving Repr, DecidableEq

/-- An operand. -/
inductive Operand where
  | int (value : Int)
  /-- A string, in the script's encoding. -/
  | bytes (raw : List UInt8)
  | transition (t : Transition)
  | options (choices : List MenuOption)
deriving Repr, DecidableEq

/-- One instruction of a script. -/
structure Instruction where
  /-- Where it starts. -/
  addr : Nat
  /-- The bytes it takes, its terminator included. -/
  len : Nat
  /-- Its first byte; markers have none. -/
  opcode : Option UInt8
  mnemonic : Mnemonic
  operands : List Operand
deriving Repr, DecidableEq

namespace Instruction

/-- A marker at an address. -/
def marker (addr : Nat) (mnemonic : Mnemonic) : Instruction :=
  ⟨addr, 0, none, mnemonic, []⟩

/-- Where the next instruction starts. -/
def next (i : Instruction) : Nat :=
  i.addr + i.len

/-- The number at a place among the operands. -/
def int? (i : Instruction) (k : Nat) : Option Int :=
  match i.operands[k]? with
  | some (.int value) => some value
  | _ => none

/-- The string at a place among the operands. -/
def bytes? (i : Instruction) (k : Nat) : Option (List UInt8) :=
  match i.operands[k]? with
  | some (.bytes raw) => some raw
  | _ => none

/-- The string that ends the operands. -/
def lastBytes? (i : Instruction) : Option (List UInt8) :=
  match i.operands.getLast? with
  | some (.bytes raw) => some raw
  | _ => none

/-- The choices of a menu. -/
def options? (i : Instruction) : Option (List MenuOption) :=
  match i.operands.head? with
  | some (.options choices) => some choices
  | _ => none

end Instruction

/-- Addresses have 32 bits: a number that can be one. -/
def addressOfInt? (n : Int) : Option Nat :=
  if 0 ≤ n ∧ n < 0x100000000 then some n.toNat else none

end Rio
