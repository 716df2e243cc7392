import Rio.Bytecode.Mnemonic

/-!
# Operand layouts

How the operands of an operation lie in the script: a row of fields, little-endian, and a zero byte
after them unless the row ends in a string. A few operations read more into their fields.
-/

namespace Rio.Bytecode

/-- One operand of a row. -/
inductive Field where
  | u8
  | i8
  | u16
  | i16
  | i32
  /-- One byte that carries nothing. -/
  | pad
  /-- Bytes up to a zero byte. -/
  | cstr
deriving Repr, DecidableEq

/-- The width of a field in bytes; strings have none of their own. -/
def Field.width? : Field → Option Nat
  | u8 | i8 | pad => some 1
  | u16 | i16 => some 2
  | i32 => some 4
  | cstr => none

/-- The name of a kind of field. -/
def Field.name : Field → String
  | u8 => "u8"
  | i8 => "i8"
  | u16 => "u16"
  | i16 => "i16"
  | i32 => "i32"
  | pad => "pad"
  | cstr => "cstr"

/-- The operands of an operation. -/
inductive Layout where
  /-- No operands and no terminator. -/
  | bare
  /-- A row of fields. -/
  | fields (row : List Field)
deriving Repr, DecidableEq

/-- Operations that read more into their fields. -/
inductive Family where
  /-- The first field selects a conditional branch. -/
  | branch
  /-- The first field selects an assignment. -/
  | assign
  /-- The field counts the options of a menu that follow it. -/
  | options
  /-- The first field is the code of a transition. -/
  | transition
deriving Repr, DecidableEq

/-- The name of a family. -/
def Family.name : Family → String
  | branch => "branch"
  | assign => "assign"
  | options => "options"
  | transition => "transition"

/-- How one operation is read. -/
structure Descriptor where
  mnemonic : Mnemonic
  layout : Layout
  family : Option Family
deriving Repr, DecidableEq

/-- Whether a zero byte closes the instruction. -/
def Descriptor.expectsTerminator (d : Descriptor) : Bool :=
  match d.layout with
  | .bare => false
  | .fields row => d.family != some .options && row.getLast? != some .cstr

/-- The conditional branches by selector. -/
def branchMembers : List Mnemonic :=
  [.cjmp, .jbe, .jle, .jeq, .jne, .jbt, .jlt]

/-- The assignments by selector. -/
def assignMembers : List Mnemonic :=
  [.clr, .mov, .add, .sub, .movf, .mod, .rnd]

end Rio.Bytecode
