import Mathlib.Data.List.Forall2
import Rio.Proofs.Bytecode.Addresses

/-!
# Assembling scripts, and decoding them again

`RawInstruction.bytes` writes an instruction the way it lies in a script: its operation byte, its
fields in little-endian order, a zero byte after each string and, where one is expected, a zero
byte at the end. `decode_assemble_append` says that the decoder undoes this:

> assembled instructions, followed by any bytes whatever, decode to these instructions, each at the
> number of bytes before it, and then to what the bytes after them decode to on their own.

A `RawInstruction` carries the proof that its operands fit its operation, so there is nothing to
assume about the list. Each reader has one lemma of the form "what was written in front of `rest`
is read, and `rest` is left"; the main result chains them by the shape of the operands.
-/

namespace Rio.Bytecode

/-! ## Numbers -/

/-- The `width` lowest bytes of a number in little-endian order. -/
def toLittleEndian : Nat → Nat → List UInt8
  | 0, _ => []
  | width + 1, n => UInt8.ofNat n :: toLittleEndian width (n / 0x100)

theorem length_toLittleEndian : ∀ (width n : Nat), (toLittleEndian width n).length = width
  | 0, _ => rfl
  | width + 1, n => by rw [toLittleEndian, List.length_cons, length_toLittleEndian width]

/-- Bytes in little-endian order give the number back, if it fits into them. -/
theorem littleEndian_toLittleEndian :
    ∀ (width n : Nat), n < Nat.pow 0x100 width → littleEndian (toLittleEndian width n) = n
  | 0, n, h => by
    have hone : n < 1 := h
    rw [toLittleEndian, littleEndian]
    omega
  | width + 1, n, h => by
    -- without its lowest byte the number takes one byte less
    have hdiv : n / 0x100 < Nat.pow 0x100 width := by
      have hmul : n < Nat.pow 0x100 width * 0x100 := h
      exact Nat.div_lt_of_lt_mul (by omega)
    rw [toLittleEndian, littleEndian, littleEndian_toLittleEndian width _ hdiv]
    simp only [UInt8.toNat_ofNat']
    omega

/-- A number modulo the numbers of `width` bytes. -/
def residue (width : Nat) (n : Int) : Nat :=
  (n % Nat.pow 0x100 width).toNat

theorem residue_lt (width : Nat) (n : Int) : residue width n < Nat.pow 0x100 width := by
  have hpos : (0 : Int) < Nat.pow 0x100 width := by
    exact_mod_cast Nat.pow_pos (by omega)
  have hnonneg := Int.emod_nonneg n (by omega : (Nat.pow 0x100 width : Int) ≠ 0)
  have hlt := Int.emod_lt_of_pos n hpos
  unfold residue
  omega

/-- A number that fits is its own residue. -/
theorem residue_natCast {width n : Nat} (h : n < Nat.pow 0x100 width) : residue width n = n := by
  unfold residue
  rw [← Int.natCast_emod, Int.toNat_natCast, Nat.mod_eq_of_lt h]

/-- A signed number is found again from its residue. -/
theorem signed_residue {width : Nat} {n : Int} (hlo : -(Nat.pow 0x100 width : Int) ≤ 2 * n)
    (hhi : 2 * n < (Nat.pow 0x100 width : Int)) : signed width (residue width n) = n := by
  unfold signed residue
  generalize Nat.pow 0x100 width = m at hlo hhi ⊢
  rcases Int.le_total 0 n with hn | hn
  · rw [Int.emod_eq_of_lt hn (by omega), if_pos (by omega)]
    omega
  · -- a negative number stands in the upper half of the range
    rcases Int.lt_or_eq_of_le hn with hneg | rfl
    · have hmod : n % (m : Int) = n + m := by
        rw [← Int.add_emod_right]
        exact Int.emod_eq_of_lt (by omega) (by omega)
      rw [hmod, if_neg (by omega)]
      omega
    · rw [Int.zero_emod, if_pos (by omega)]
      rfl

/-- Reading takes exactly the bytes of the number. -/
theorem readUnsigned_append {width n : Nat} (h : n < Nat.pow 0x100 width) (rest : List UInt8) :
    readUnsigned width (toLittleEndian width n ++ rest) = some (n, rest) := by
  have hlen := length_toLittleEndian width n
  unfold readUnsigned
  rw [List.take_left' hlen, List.drop_left' hlen, if_pos hlen,
    littleEndian_toLittleEndian width n h]

/-- A negative number is read back from its residue. -/
theorem readSigned_append {width : Nat} {n : Int} (hlo : -(Nat.pow 0x100 width : Int) ≤ 2 * n)
    (hhi : 2 * n < (Nat.pow 0x100 width : Int)) (rest : List UInt8) :
    readSigned width (toLittleEndian width (residue width n) ++ rest) = some (n, rest) := by
  unfold readSigned
  rw [readUnsigned_append (residue_lt width n), Option.map_some]
  simp only [signed_residue hlo hhi]

/-! ## Strings -/

theorem bne_zero_of_notMem {s : List UInt8} (h : 0 ∉ s) : ∀ b ∈ s, (b != 0) = true := by
  intro b hb
  exact bne_iff_ne.mpr fun he => h (he ▸ hb)

/-- A string without a zero byte is read up to the zero byte behind it. -/
theorem readString_append {s : List UInt8} (h : 0 ∉ s) (rest : List UInt8) :
    readString (s ++ 0 :: rest) = some (s, rest) := by
  have hall := bne_zero_of_notMem h
  have hread : readString (s ++ 0 :: rest)
      = some ((s ++ 0 :: rest).takeWhile (· != 0),
        ((s ++ 0 :: rest).dropWhile (· != 0)).drop 1) := by
    cases s <;> rfl
  rw [hread, List.takeWhile_append_of_pos hall, List.dropWhile_append_of_pos hall]
  simp

/-! ## Fields -/

/-- The numbers that a field can hold. -/
def Field.Holds : Field → Int → Prop
  | .u8, n => 0 ≤ n ∧ n < 0x100
  | .i8, n => -0x80 ≤ n ∧ n < 0x80
  | .u16, n => 0 ≤ n ∧ n < 0x10000
  | .i16, n => -0x8000 ≤ n ∧ n < 0x8000
  | .i32, n => -0x80000000 ≤ n ∧ n < 0x80000000
  | .pad, _ | .cstr, _ => False

/-- What stands in a field: padding may be any byte. -/
inductive Slot where
  | number (n : Int)
  | text (s : List UInt8)
  | padding (b : UInt8)
deriving Repr, DecidableEq

namespace Slot

/-- What may stand in a field. Strings hold no zero byte. -/
def Fits : Field → Slot → Prop
  | field, number n => field.Holds n
  | .cstr, text s => 0 ∉ s
  | .pad, padding _ => True
  | _, _ => False

/-- The bytes of a field. -/
def bytes (field : Field) : Slot → List UInt8
  | number n => toLittleEndian (field.width?.getD 0) (residue (field.width?.getD 0) n)
  | text s => s ++ [0]
  | padding b => [b]

/-- The operand of a field; padding has none. -/
def operands : Slot → List Operand
  | number n => [.int n]
  | text s => [.bytes s]
  | padding _ => []

end Slot

/-- A number in a field of unsigned ones. -/
theorem readUnsigned_number {width : Nat} {n : Int} (hlo : 0 ≤ n)
    (hhi : n < (Nat.pow 0x100 width : Int)) (rest : List UInt8) :
    readUnsigned width (toLittleEndian width (residue width n) ++ rest) = some (n.toNat, rest) := by
  obtain ⟨k, rfl⟩ := Int.eq_ofNat_of_zero_le hlo
  have hk : k < Nat.pow 0x100 width := by omega
  rw [residue_natCast hk]
  exact readUnsigned_append hk rest

/-- How many numbers the widths of fields hold. -/
theorem numbers_of_width :
    Nat.pow 0x100 1 = 0x100 ∧ Nat.pow 0x100 2 = 0x10000 ∧ Nat.pow 0x100 4 = 0x100000000 := by
  decide

/-- Each field reads back what was written for it, and leaves the rest. -/
theorem readField_append {field : Field} {slot : Slot} (h : slot.Fits field) (rest : List UInt8) :
    readField field (slot.bytes field ++ rest) = some (slot.operands, rest) := by
  obtain ⟨hone, htwo, hfour⟩ := numbers_of_width
  cases slot with
  | number n =>
    cases field with
    | u8 | u16 =>
      obtain ⟨hlo, hhi⟩ := h
      simp only [readField, Slot.bytes, Field.width?, Option.getD_some]
      rw [readUnsigned_number hlo (by omega), Option.map_some, Slot.operands]
      simp only [Int.toNat_of_nonneg hlo]
    | i8 | i16 | i32 =>
      obtain ⟨hlo, hhi⟩ := h
      simp only [readField, Slot.bytes, Field.width?, Option.getD_some]
      rw [readSigned_append (by omega) (by omega), Option.map_some, Slot.operands]
    | pad | cstr => exact absurd h (by simp [Slot.Fits, Field.Holds])
  | text s =>
    cases field with
    | cstr =>
      rw [readField, Slot.bytes, List.append_assoc, List.singleton_append, readString_append h,
        Option.map_some, Slot.operands]
    | u8 | i8 | u16 | i16 | i32 | pad => exact absurd h (by simp [Slot.Fits])
  | padding b =>
    cases field with
    | pad => rfl
    | u8 | i8 | u16 | i16 | i32 | cstr => exact absurd h (by simp [Slot.Fits])

/-- The bytes of a row of fields. -/
def rowBytes (row : List Field) (slots : List Slot) : List UInt8 :=
  (List.zipWith Slot.bytes row slots).flatten

/-- By induction on the row. -/
theorem readFields_append {row : List Field} {slots : List Slot}
    (h : List.Forall₂ (fun field slot => slot.Fits field) row slots) (rest : List UInt8) :
    readFields row (rowBytes row slots ++ rest) = some (slots.flatMap Slot.operands, rest) := by
  unfold rowBytes
  induction h with
  | nil => rfl
  | cons hfit _ ih =>
    rw [List.zipWith_cons_cons, List.flatten_cons, List.append_assoc, readFields,
      readField_append hfit]
    simp only [Option.bind_eq_bind, Option.bind_some, ih, Option.pure_def, List.flatMap_cons]

/-! ## Menus -/

end Rio.Bytecode

namespace Rio.MenuOption

open Bytecode

/-- An option whose parts can be written. -/
structure Fits (o : MenuOption) : Prop where
  textId : Field.i16.Holds o.textId
  text : 0 ∉ o.text
  unknown1 : o.unknown1 < 0x100
  flag : o.flag < 0x10000
  unknown2 : o.unknown2 < 0x100
  target : 0 ∉ o.target

/-- The bytes of an option. -/
def bytes (o : MenuOption) : List UInt8 :=
  toLittleEndian 2 (residue 2 o.textId) ++ (o.text ++ 0 :: (toLittleEndian 1 o.unknown1 ++
    (toLittleEndian 2 o.flag ++ (toLittleEndian 1 o.unknown2 ++ (o.target ++ [0])))))

end Rio.MenuOption

namespace Rio.Bytecode

/-- The fields of a choice are read in the order they are written in. -/
theorem readOption_append {o : MenuOption} (h : o.Fits) (rest : List UInt8) :
    readOption (o.bytes ++ rest) = some (o, rest) := by
  obtain ⟨-, htwo, -⟩ := numbers_of_width
  obtain ⟨hlo, hhi⟩ := h.textId
  unfold readOption MenuOption.bytes
  simp only [List.append_assoc, List.cons_append, List.nil_append, Option.bind_eq_bind,
    Option.pure_def]
  rw [readSigned_append (by omega) (by omega), Option.bind_some]
  have h₁ : o.unknown1 < Nat.pow 0x100 1 := h.unknown1
  have hflag : o.flag < Nat.pow 0x100 2 := h.flag
  have h₂ : o.unknown2 < Nat.pow 0x100 1 := h.unknown2
  simp only [readString_append h.text, readUnsigned_append h₁, readUnsigned_append hflag,
    readUnsigned_append h₂, readString_append h.target, Option.bind_some]

/-- As many choices are read as the count says. -/
theorem readOptions_append {choices : List MenuOption} (h : ∀ o ∈ choices, o.Fits)
    (rest : List UInt8) :
    readOptions choices.length (choices.flatMap MenuOption.bytes ++ rest)
      = some (choices, rest) := by
  induction choices with
  | nil => rfl
  | cons o choices ih =>
    have ho := readOption_append (h o (List.mem_cons_self ..))
    have hrest := ih fun p hp => h p (List.mem_cons_of_mem _ hp)
    rw [List.length_cons, readOptions, List.flatMap_cons, List.append_assoc, ho]
    simp only [Option.bind_eq_bind, Option.bind_some, hrest, Option.pure_def]

/-! ## Operands -/

/-- The fields of a layout. -/
def Layout.row : Layout → List Field
  | .bare => []
  | .fields row => row

/-- What an instruction says after its operation byte. -/
inductive Body where
  | row (slots : List Slot)
  | menu (choices : List MenuOption)
deriving Repr, DecidableEq

namespace Body

/-- What an operation can be given. A menu counts its options in two bytes. -/
def Fits (d : Descriptor) : Body → Prop
  | row slots =>
    List.Forall₂ (fun field slot => slot.Fits field) d.layout.row slots ∧
      (d.layout = .bare ∨ d.family ≠ some .options)
  | menu choices =>
    d.layout ≠ .bare ∧ d.family = some .options ∧ choices.length ≤ 0xffff ∧ ∀ o ∈ choices, o.Fits

/-- The bytes after the operation byte, without the terminator. -/
def bytes (d : Descriptor) : Body → List UInt8
  | row slots => rowBytes d.layout.row slots
  | menu choices => toLittleEndian 2 choices.length ++ choices.flatMap MenuOption.bytes

/-- The operands of an instruction. -/
def operands : Body → List Operand
  | row slots => slots.flatMap Slot.operands
  | menu choices => [.options choices]

end Body

/-- The operands of an instruction are read back, whether they are a row of fields or a menu. -/
theorem readOperands_append {d : Descriptor} {body : Body} (h : body.Fits d) (rest : List UInt8) :
    readOperands d (body.bytes d ++ rest) = some (body.operands, rest) := by
  obtain ⟨mnemonic, layout, family⟩ := d
  cases body with
  | row slots =>
    obtain ⟨hfit, hfamily⟩ := h
    cases layout with
    | bare =>
      cases hfit
      rfl
    | fields row =>
      -- only menus read something else than the fields of the row
      have hread : readOperands ⟨mnemonic, .fields row, family⟩ = readFields row := by
        funext bytes
        unfold readOperands
        split
        · next heq => exact absurd heq (by simp)
        · next _ hopt => exact absurd hopt (hfamily.resolve_left (by simp))
        · next heq _ => cases heq; rfl
      rw [hread]
      exact readFields_append hfit rest
  | menu choices =>
    obtain ⟨hlayout, hfamily, hcount, hfit⟩ := h
    cases layout with
    | bare => exact absurd rfl hlayout
    | fields row =>
      simp only at hfamily
      subst hfamily
      simp only [readOperands, Body.bytes, Body.operands, List.append_assoc]
      rw [readUnsigned_append (numbers_of_width.2.1 ▸ Nat.lt_succ_of_le hcount)]
      simp only [Option.bind_eq_bind, Option.bind_some, readOptions_append hfit, Option.pure_def]

/-! ## Instructions -/

/-- An instruction as it is to be written, for the table of a version. -/
structure RawInstruction (version : Version) where
  op : UInt8
  descriptor : Descriptor
  body : Body
  listed : version.descriptor? op = some descriptor
  fits : body.Fits descriptor

namespace RawInstruction

variable {version : Version}

/-- The bytes of an instruction. -/
def bytes (r : RawInstruction version) : List UInt8 :=
  r.op :: (r.body.bytes r.descriptor ++ if r.descriptor.expectsTerminator then [0] else [])

/-- The instruction at an address. -/
def placeAt (r : RawInstruction version) (addr : Nat) : Instruction :=
  ⟨addr, r.bytes.length, some r.op, r.descriptor.mnemonic, r.body.operands⟩

end RawInstruction

/-- The bytes of instructions, one after the other. -/
def assemble {version : Version} (l : List (RawInstruction version)) : List UInt8 :=
  l.flatMap RawInstruction.bytes

/-- Instructions one after the other from an address on. -/
def placeFrom {version : Version} : Nat → List (RawInstruction version) → List Instruction
  | _, [] => []
  | addr, r :: l => r.placeAt addr :: placeFrom (addr + r.bytes.length) l

/-- The terminator is found where one is expected. -/
theorem takeTerminator_append (d : Descriptor) (rest : List UInt8) :
    takeTerminator d ((if d.expectsTerminator then [0] else []) ++ rest) = (false, rest) := by
  unfold takeTerminator
  cases d.expectsTerminator <;> rfl

/-- An instruction in front of other bytes is read, and nothing else. -/
theorem readInstruction_append {version : Version} (r : RawInstruction version) (addr : Nat)
    (rest : List UInt8) :
    ∃ after, r.bytes ++ rest = r.op :: after ∧
      readInstruction version false addr r.op after = ([r.placeAt addr], rest) ∧
      1 + after.length - rest.length = r.bytes.length := by
  refine ⟨r.body.bytes r.descriptor
    ++ ((if r.descriptor.expectsTerminator then [0] else []) ++ rest), ?_, ?_, ?_⟩
  · rw [RawInstruction.bytes, List.cons_append, List.append_assoc]
  · unfold readInstruction
    rw [r.listed]
    simp only [readOperands_append r.fits, takeTerminator_append, Bool.false_eq_true, if_false]
    simp only [RawInstruction.placeAt, RawInstruction.bytes, List.length_append, List.length_cons]
    congr 3
    omega
  · simp only [RawInstruction.bytes, List.length_append, List.length_cons]
    omega

/-- An instruction that was written is decoded first, at the address it starts at. -/
theorem decodeFrom_append {version : Version} (r : RawInstruction version) (addr : Nat)
    (rest : List UInt8) :
    decodeFrom version false addr (r.bytes ++ rest)
      = r.placeAt addr :: decodeFrom version false (addr + r.bytes.length) rest := by
  obtain ⟨after, hbytes, hread, hlen⟩ := readInstruction_append r addr rest
  rw [hbytes, decodeFrom, hread, hlen]
  rfl

/-- By induction on the instructions, each starts where the one before it ends. -/
theorem decodeFrom_assemble {version : Version} (rest : List UInt8) :
    ∀ (l : List (RawInstruction version)) (addr : Nat),
      decodeFrom version false addr (assemble l ++ rest)
        = placeFrom addr l ++ decodeFrom version false (addr + (assemble l).length) rest
  | [], _ => rfl
  | r :: l, addr => by
    have hcons : assemble (r :: l) = r.bytes ++ assemble l := List.flatMap_cons
    rw [hcons, List.append_assoc, decodeFrom_append, decodeFrom_assemble rest l, placeFrom,
      List.length_append, Nat.add_assoc, List.cons_append]

/-- Decoding undoes assembling, whatever bytes follow. -/
theorem decode_assemble_append {version : Version} (l : List (RawInstruction version))
    (rest : List UInt8) :
    decode version false (assemble l ++ rest)
      = placeFrom 0 l
        ++ (decode version false rest).map (Instruction.shift (assemble l).length) := by
  unfold decode
  rw [decodeFrom_assemble, decodeFrom_shift]

end Rio.Bytecode
