import Rio.Bytecode.Instruction
import Rio.Bytecode.Table
import Rio.Report

/-!
# Decoding scripts

A script is read from its first byte to its last. Decoding never fails: bytes that form no
instruction become `INVALID` ones, a missing terminator is marked, and a marker closes the list.
-/

namespace Rio.Bytecode

/-! ## Fields -/

/-- The value of `n` as a signed number of `width` bytes: the upper half of the range is
negative. -/
def signed (width n : Nat) : Int :=
  if 2 * n < Nat.pow 0x100 width then n else n - Nat.pow 0x100 width

/-- The value of bytes in little-endian order. -/
def littleEndian : List UInt8 → Nat
  | [] => 0
  | b :: bytes => b.toNat + 0x100 * littleEndian bytes

/-- An unsigned number of `width` bytes. -/
def readUnsigned (width : Nat) (bytes : List UInt8) : Option (Nat × List UInt8) :=
  let taken := bytes.take width
  if taken.length = width then some (littleEndian taken, bytes.drop width) else none

/-- A signed number of `width` bytes. -/
def readSigned (width : Nat) (bytes : List UInt8) : Option (Int × List UInt8) :=
  (readUnsigned width bytes).map fun (n, rest) => (signed width n, rest)

/-- A string up to its zero byte, or up to the end of the script if it has none. -/
def readString : List UInt8 → Option (List UInt8 × List UInt8)
  | [] => none
  | bytes => some (bytes.takeWhile (· != 0), (bytes.dropWhile (· != 0)).drop 1)

/-- The operand of one field; padding has none. -/
def readField (field : Field) (bytes : List UInt8) : Option (List Operand × List UInt8) :=
  match field with
  | .u8 => (readUnsigned 1 bytes).map fun (n, rest) => ([.int n], rest)
  | .i8 => (readSigned 1 bytes).map fun (n, rest) => ([.int n], rest)
  | .u16 => (readUnsigned 2 bytes).map fun (n, rest) => ([.int n], rest)
  | .i16 => (readSigned 2 bytes).map fun (n, rest) => ([.int n], rest)
  | .i32 => (readSigned 4 bytes).map fun (n, rest) => ([.int n], rest)
  | .pad => (readUnsigned 1 bytes).map fun (_, rest) => ([], rest)
  | .cstr => (readString bytes).map fun (s, rest) => ([.bytes s], rest)

/-- The operands of a row of fields. -/
def readFields : List Field → List UInt8 → Option (List Operand × List UInt8)
  | [], bytes => some ([], bytes)
  | field :: row, bytes => do
    let (first, rest) ← readField field bytes
    let (others, rest) ← readFields row rest
    return (first ++ others, rest)

/-- One option of a menu. -/
def readOption (bytes : List UInt8) : Option (MenuOption × List UInt8) := do
  let (textId, rest) ← readSigned 2 bytes
  let (text, rest) ← readString rest
  let (unknown1, rest) ← readUnsigned 1 rest
  let (flag, rest) ← readUnsigned 2 rest
  let (unknown2, rest) ← readUnsigned 1 rest
  let (target, rest) ← readString rest
  return (⟨textId, text, unknown1, flag, unknown2, target⟩, rest)

/-- A number of options. -/
def readOptions : Nat → List UInt8 → Option (List MenuOption × List UInt8)
  | 0, bytes => some ([], bytes)
  | n + 1, bytes => do
    let (first, rest) ← readOption bytes
    let (others, rest) ← readOptions n rest
    return (first :: others, rest)

/-- The operands of an operation, before selectors and codes are given their names. -/
def readOperands (d : Descriptor) (bytes : List UInt8) : Option (List Operand × List UInt8) :=
  match d.layout, d.family with
  | .bare, _ => some ([], bytes)
  | .fields _, some .options => do
    let (count, rest) ← readUnsigned 2 bytes
    let (choices, rest) ← readOptions count rest
    return ([.options choices], rest)
  | .fields row, _ => readFields row bytes

/-! ## Names for selectors and codes -/

/-- The entry of a list at a number that may be no place in it. -/
def entryAt? {α : Type} (entries : List α) (n : Int) : Option α :=
  if 0 ≤ n then entries[n.toNat]? else none

/-- Replaces a selector by the member of its family that it selects, and the code of a transition by
the transition. What selects nothing stays as it is. -/
def nameOperands (d : Descriptor) (operands : List Operand) : Mnemonic × List Operand :=
  match d.layout, d.family, operands with
  | .fields _, some .branch, .int selector :: others =>
    match entryAt? branchMembers selector with
    | some m => (m, others)
    | none => (d.mnemonic, operands)
  | .fields _, some .assign, .int selector :: others =>
    match entryAt? assignMembers selector with
    | some m => (m, others)
    | none => (d.mnemonic, operands)
  | .fields _, some .transition, .int code :: others =>
    match entryAt? Transition.all code with
    | some t => (d.mnemonic, .transition t :: others)
    | none => (d.mnemonic, operands)
  | _, _, _ => (d.mnemonic, operands)

/-! ## What reading leaves over

Each reader leaves a final piece of its input, so decoding comes to an end. -/

/-- An unsigned number leaves no more than there was. -/
theorem length_of_readUnsigned {width n : Nat} {bytes rest : List UInt8}
    (h : readUnsigned width bytes = some (n, rest)) : rest.length ≤ bytes.length := by
  simp only [readUnsigned] at h
  split at h
  · simp only [Option.some.injEq, Prod.mk.injEq] at h
    rw [← h.2, List.length_drop]
    omega
  · simp at h

/-- The same for a signed number. -/
theorem length_of_readSigned {width : Nat} {n : Int} {bytes rest : List UInt8}
    (h : readSigned width bytes = some (n, rest)) : rest.length ≤ bytes.length := by
  simp only [readSigned, Option.map_eq_some_iff, Prod.mk.injEq] at h
  obtain ⟨⟨m, r⟩, hr, -, rfl⟩ := h
  exact length_of_readUnsigned hr

/-- The same for a string. -/
theorem length_of_readString {s bytes rest : List UInt8}
    (h : readString bytes = some (s, rest)) : rest.length ≤ bytes.length := by
  have hle : (bytes.dropWhile (· != 0)).length ≤ bytes.length :=
    (List.dropWhile_sublist _).length_le
  cases bytes with
  | nil => simp [readString] at h
  | cons b bytes =>
    simp only [readString, Option.some.injEq, Prod.mk.injEq] at h
    rw [← h.2, List.length_drop]
    omega

/-- The same for a field of any kind. -/
theorem length_of_readField {field : Field} {operands : List Operand} {bytes rest : List UInt8}
    (h : readField field bytes = some (operands, rest)) : rest.length ≤ bytes.length := by
  cases field <;> simp only [readField, Option.map_eq_some_iff, Prod.mk.injEq] at h <;>
    obtain ⟨⟨m, r⟩, hr, -, rfl⟩ := h
  case u8 | u16 | pad => exact length_of_readUnsigned hr
  case i8 | i16 | i32 => exact length_of_readSigned hr
  case cstr => exact length_of_readString hr

/-- The same for a row of fields. -/
theorem length_of_readFields {row : List Field} {operands : List Operand} {bytes rest : List UInt8}
    (h : readFields row bytes = some (operands, rest)) : rest.length ≤ bytes.length := by
  induction row generalizing operands bytes with
  | nil =>
    simp only [readFields, Option.some.injEq, Prod.mk.injEq] at h
    exact Nat.le_of_eq (congrArg _ h.2.symm)
  | cons field row ih =>
    simp only [readFields, Option.bind_eq_bind, Option.bind_eq_some_iff, Option.pure_def,
      Option.some.injEq, Prod.mk.injEq] at h
    obtain ⟨⟨first, r⟩, hr, ⟨others, r'⟩, hr', -, rfl⟩ := h
    exact Nat.le_trans (ih hr') (length_of_readField hr)

/-- The same for an option of a menu. -/
theorem length_of_readOption {o : MenuOption} {bytes rest : List UInt8}
    (h : readOption bytes = some (o, rest)) : rest.length ≤ bytes.length := by
  simp only [readOption, Option.bind_eq_bind, Option.bind_eq_some_iff, Option.pure_def,
    Option.some.injEq, Prod.mk.injEq] at h
  obtain ⟨⟨_, _⟩, h₁, ⟨_, _⟩, h₂, ⟨_, _⟩, h₃, ⟨_, _⟩, h₄, ⟨_, _⟩, h₅, ⟨_, _⟩, h₆, -, rfl⟩ := h
  exact Nat.le_trans (length_of_readString h₆) <| Nat.le_trans (length_of_readUnsigned h₅) <|
    Nat.le_trans (length_of_readUnsigned h₄) <| Nat.le_trans (length_of_readUnsigned h₃) <|
    Nat.le_trans (length_of_readString h₂) (length_of_readSigned h₁)

/-- The same for all options of a menu. -/
theorem length_of_readOptions {n : Nat} {choices : List MenuOption} {bytes rest : List UInt8}
    (h : readOptions n bytes = some (choices, rest)) : rest.length ≤ bytes.length := by
  induction n generalizing choices bytes with
  | zero =>
    simp only [readOptions, Option.some.injEq, Prod.mk.injEq] at h
    exact Nat.le_of_eq (congrArg _ h.2.symm)
  | succ n ih =>
    simp only [readOptions, Option.bind_eq_bind, Option.bind_eq_some_iff, Option.pure_def,
      Option.some.injEq, Prod.mk.injEq] at h
    obtain ⟨⟨first, r⟩, hr, ⟨others, r'⟩, hr', -, rfl⟩ := h
    exact Nat.le_trans (ih hr') (length_of_readOption hr)

/-- The same for the operands of an operation. -/
theorem length_of_readOperands {d : Descriptor} {operands : List Operand} {bytes rest : List UInt8}
    (h : readOperands d bytes = some (operands, rest)) : rest.length ≤ bytes.length := by
  unfold readOperands at h
  split at h
  · simp only [Option.some.injEq, Prod.mk.injEq] at h
    exact Nat.le_of_eq (congrArg _ h.2.symm)
  · simp only [Option.bind_eq_bind, Option.bind_eq_some_iff, Option.pure_def,
      Option.some.injEq, Prod.mk.injEq] at h
    obtain ⟨⟨_, _⟩, h₁, ⟨_, _⟩, h₂, -, rfl⟩ := h
    exact Nat.le_trans (length_of_readOptions h₂) (length_of_readUnsigned h₁)
  · exact length_of_readFields h

/-! ## Instructions -/

/-- Bytes that form no instruction, shown as numbers. -/
def invalid (addr len : Nat) (op : UInt8) (bytes : List UInt8) : Instruction :=
  ⟨addr, len, some op, .invalid, bytes.map fun b => .int b.toNat⟩

/-- Takes the terminator of an operation, and tells whether it is missing. At the end of the script
nothing is missing. -/
def takeTerminator (d : Descriptor) (bytes : List UInt8) : Bool × List UInt8 :=
  match d.expectsTerminator, bytes with
  | true, b :: rest => if b == 0 then (false, rest) else (true, b :: rest)
  | _, _ => (false, bytes)

/-- Taking a terminator leaves no more than there was. -/
theorem length_takeTerminator (d : Descriptor) (bytes : List UInt8) :
    (takeTerminator d bytes).2.length ≤ bytes.length := by
  unfold takeTerminator
  split
  · split <;> simp
  · exact Nat.le_refl _

/-- Reads the instruction at `addr` that starts with the byte `op`, and gives it, followed by a
marker if its terminator is missing, with the bytes after it.

An unknown operation is skipped through the next zero byte. An operation whose operands run past the
end takes all that is left. -/
def readInstruction (version : Version) (naming : Bool) (addr : Nat) (op : UInt8)
    (bytes : List UInt8) : List Instruction × List UInt8 :=
  match version.descriptor? op with
  | none =>
    let rest := (bytes.dropWhile (· != 0)).drop 1
    ([invalid addr (1 + bytes.length - rest.length) op (bytes.takeWhile (· != 0))], rest)
  | some d =>
    match readOperands d bytes with
    | none => ([invalid addr (1 + bytes.length) op bytes], [])
    | some (operands, rest) =>
      let named := if naming then nameOperands d operands else (d.mnemonic, operands)
      let closed := takeTerminator d rest
      let i : Instruction := ⟨addr, 1 + bytes.length - closed.2.length, some op, named.1, named.2⟩
      (if closed.1 then [i, .marker i.next .notTerminated] else [i], closed.2)

/-- An instruction takes at least its first byte, so what follows it is shorter than the script. -/
theorem length_readInstruction (version : Version) (naming : Bool) (addr : Nat) (op : UInt8)
    (bytes : List UInt8) :
    (readInstruction version naming addr op bytes).2.length ≤ bytes.length := by
  unfold readInstruction
  split
  · have hle : (bytes.dropWhile (· != 0)).length ≤ bytes.length :=
      (List.dropWhile_sublist _).length_le
    simp only [List.length_drop]
    omega
  · split
    · simp
    · next hr => exact Nat.le_trans (length_takeTerminator ..) (length_of_readOperands hr)

/-- Decodes bytes that start at an address. -/
def decodeFrom (version : Version) (naming : Bool) (addr : Nat) : List UInt8 → List Instruction
  | [] => [.marker addr .endOfStream]
  | op :: bytes =>
    let read := readInstruction version naming addr op bytes
    have := length_readInstruction version naming addr op bytes
    read.1 ++ decodeFrom version naming (addr + (1 + bytes.length - read.2.length)) read.2
termination_by bytes => bytes.length

/-- Decodes a script. With `naming`, selectors and transition codes are given their names. -/
def decode (version : Version) (naming : Bool) (script : List UInt8) : List Instruction :=
  decodeFrom version naming 0 script

/-! ## Reports -/

/-- What is to be said about an instruction, given the one after it. -/
def instructionRecords (version : Version) (i : Instruction) (next? : Option Instruction) :
    List Record :=
  match i.opcode, i.mnemonic, next? with
  | some op, .invalid, _ =>
    match version.descriptor? op with
    | none =>
      [⟨.warn, "unknown opcode 0x" ++ Numeral.hexByte op ++ " at " ++ Numeral.hexLiteral i.addr ++
        ", skipping " ++ toString i.operands.length ++ " bytes"⟩]
    | some d => [⟨.warn, "truncated " ++ d.mnemonic.name ++ " at " ++ Numeral.hexLiteral i.addr⟩]
  | some _, m, some ⟨_, _, _, .notTerminated, _⟩ =>
    [⟨.warn, m.name ++ " at " ++ Numeral.hexLiteral i.addr ++ " is not terminated"⟩]
  | _, _, _ => []

/-- What is to be said about decoded instructions, in order. -/
def recordsOf (version : Version) : List Instruction → List Record
  | [] => []
  | i :: rest => instructionRecords version i rest.head? ++ recordsOf version rest

/-- The reports of decoding a script. -/
def decodeRecords (version : Version) (script : List UInt8) (instructions : List Instruction) :
    List Record :=
  ⟨.debug, "decoding " ++ toString script.length ++ " bytes with the " ++ version.name ++
    " opcode table"⟩ :: recordsOf version instructions

end Rio.Bytecode
