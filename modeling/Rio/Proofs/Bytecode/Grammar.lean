import Mathlib.Data.List.TakeWhile
import Rio.Proofs.Bytecode.RoundTrip

/-!
# What operands look like in a script

The readers of operands, turned around. `Body.Spans d piece rest body` says that the operands
`body` of an operation take the bytes `piece` in front of `rest`: each field its bytes in
little-endian order, each string a zero byte after it. Only at the end of the script may that zero
be missing. Every reader accepts exactly this,

> `readOperands_eq_some_iff`: `readOperands d bytes` gives `operands` and leaves `rest` exactly if
> `bytes` is some `piece ++ rest` in which operands `body` with these values lie,

so what cannot be read is what no operands spell. `Body.Spans.length` counts the bytes.
-/

namespace Rio.Bytecode

/-! ## Numbers from their bytes -/

theorem littleEndian_lt : ∀ bytes : List UInt8, littleEndian bytes < Nat.pow 0x100 bytes.length
  | [] => by decide
  | b :: bytes => by
    have hb := b.toNat_lt
    have hrest := littleEndian_lt bytes
    have hpow : Nat.pow 0x100 (b :: bytes).length = Nat.pow 0x100 bytes.length * 0x100 := rfl
    rw [hpow, littleEndian]
    omega

/-- Bytes are the number they make, written at their length. -/
theorem toLittleEndian_littleEndian :
    ∀ bytes : List UInt8, toLittleEndian bytes.length (littleEndian bytes) = bytes
  | [] => rfl
  | b :: bytes => by
    have hb := b.toNat_lt
    -- the lowest byte is the remainder, the others are the quotient
    have hlow : UInt8.ofNat (b.toNat + 0x100 * littleEndian bytes) = b := by
      apply UInt8.toNat_inj.mp
      rw [UInt8.toNat_ofNat']
      omega
    have hhigh : (b.toNat + 0x100 * littleEndian bytes) / 0x100 = littleEndian bytes := by
      omega
    rw [List.length_cons, toLittleEndian, littleEndian, hlow, hhigh,
      toLittleEndian_littleEndian bytes]

/-- The residue of a signed number is the number it was read from. -/
theorem residue_signed {width n : Nat} (h : n < Nat.pow 0x100 width) :
    residue width (signed width n) = n := by
  unfold signed residue
  generalize Nat.pow 0x100 width = m at h ⊢
  by_cases hhalf : 2 * n < m
  · rw [if_pos hhalf, Int.emod_eq_of_lt (by omega) (by omega)]
    omega
  · rw [if_neg hhalf]
    have hmod : ((n : Int) - m) % (m : Int) = n := by
      rw [Int.sub_emod_right]
      exact Int.emod_eq_of_lt (by omega) (by omega)
    rw [hmod]
    omega

/-- Signed numbers of a width lie around zero. -/
theorem signed_bounds {width n : Nat} (h : n < Nat.pow 0x100 width) :
    -(Nat.pow 0x100 width : Int) ≤ 2 * signed width n ∧
      2 * signed width n < (Nat.pow 0x100 width : Int) := by
  unfold signed
  generalize Nat.pow 0x100 width = m at h ⊢
  split <;> omega

/-- An unsigned number is read from its bytes. -/
theorem of_readUnsigned {width n : Nat} {bytes rest : List UInt8}
    (h : readUnsigned width bytes = some (n, rest)) :
    n < Nat.pow 0x100 width ∧ bytes = toLittleEndian width n ++ rest := by
  unfold readUnsigned at h
  dsimp only at h
  split at h
  · next hlen =>
    simp only [Option.some.injEq, Prod.mk.injEq] at h
    obtain ⟨rfl, rfl⟩ := h
    have hlt := littleEndian_lt (bytes.take width)
    have hback := toLittleEndian_littleEndian (bytes.take width)
    rw [hlen] at hlt hback
    exact ⟨hlt, by rw [hback, List.take_append_drop]⟩
  · exact absurd h (by simp)

/-- A number that was read fits its width, and its residue is what was read. -/
theorem of_readSigned {width : Nat} {n : Int} {bytes rest : List UInt8}
    (h : readSigned width bytes = some (n, rest)) :
    -(Nat.pow 0x100 width : Int) ≤ 2 * n ∧ 2 * n < (Nat.pow 0x100 width : Int) ∧
      bytes = toLittleEndian width (residue width n) ++ rest := by
  unfold readSigned at h
  simp only [Option.map_eq_some_iff, Prod.mk.injEq] at h
  obtain ⟨⟨m, rest'⟩, hread, rfl, rfl⟩ := h
  obtain ⟨hlt, hbytes⟩ := of_readUnsigned hread
  obtain ⟨hlo, hhi⟩ := signed_bounds hlt
  refine ⟨hlo, hhi, ?_⟩
  rw [residue_signed hlt]
  exact hbytes

/-! ## Strings -/

/-- Bytes before the first zero, and what comes after it. -/
theorem split_at_zero (bytes : List UInt8) :
    0 ∉ bytes.takeWhile (· != 0) ∧
      (bytes = bytes.takeWhile (· != 0) ++ 0 :: (bytes.dropWhile (· != 0)).drop 1 ∨
        bytes = bytes.takeWhile (· != 0) ∧ (bytes.dropWhile (· != 0)).drop 1 = []) := by
  constructor
  · intro hmem
    have hne := List.mem_takeWhile_imp hmem
    exact absurd hne (by simp)
  · have hsplit := List.takeWhile_append_dropWhile (p := (· != 0)) (l := bytes)
    cases hrest : bytes.dropWhile (· != 0) with
    | nil =>
      rw [hrest, List.append_nil] at hsplit
      exact Or.inr ⟨hsplit.symm, rfl⟩
    | cons b rest =>
      have hzero : b = 0 := by
        have := List.head_dropWhile_not (· != 0) (l := bytes) (by rw [hrest]; simp)
        simpa [hrest] using this
      rw [hrest, hzero] at hsplit
      exact Or.inl hsplit.symm

/-- A string that runs to the end of the script is read without its zero. -/
theorem readString_unclosed {s : List UInt8} (h : 0 ∉ s) (hne : s ≠ []) :
    readString s = some (s, []) := by
  have hall := bne_zero_of_notMem h
  have hread : readString s = some (s.takeWhile (· != 0), (s.dropWhile (· != 0)).drop 1) := by
    cases s with
    | nil => exact absurd rfl hne
    | cons b s => rfl
  rw [hread, List.takeWhile_eq_self_iff.mpr hall, List.dropWhile_eq_nil_iff.mpr hall]
  rfl

/-! ## Fields -/

/-- A field takes the bytes `piece` in front of `rest`. At the end of the script a string may lack
its zero, but then it is not empty. -/
def Slot.Spans (field : Field) (slot : Slot) (piece rest : List UInt8) : Prop :=
  slot.Fits field ∧
    (piece = slot.bytes field ∨ slot = .text piece ∧ piece ≠ [] ∧ rest = [])

/-- A number in a field of its width. -/
theorem Slot.Spans.number {field : Field} {width : Nat} {n : Int}
    (hwidth : field.width? = some width) (hholds : field.Holds n) (rest : List UInt8) :
    (Slot.number n).Spans field (toLittleEndian width (residue width n)) rest := by
  have hbytes : (Slot.number n).bytes field = toLittleEndian width (residue width n) := by
    rw [Slot.bytes, hwidth, Option.getD_some]
  exact ⟨by cases field <;> exact hholds, Or.inl hbytes.symm⟩

theorem spans_of_readString {s bytes rest : List UInt8} (h : readString bytes = some (s, rest)) :
    ∃ piece, (Slot.text s).Spans .cstr piece rest ∧ bytes = piece ++ rest := by
  cases bytes with
  | nil => exact absurd h (by simp [readString])
  | cons b bytes =>
    simp only [readString, Option.some.injEq, Prod.mk.injEq] at h
    obtain ⟨rfl, rfl⟩ := h
    obtain ⟨hzero, hclosed | ⟨hwhole, hrest⟩⟩ := split_at_zero (b :: bytes)
    · refine ⟨_, ⟨hzero, Or.inl rfl⟩, ?_⟩
      rw [Slot.bytes, List.append_assoc, List.singleton_append]
      exact hclosed
    · refine ⟨_, ⟨hzero, Or.inr ⟨rfl, ?_, hrest⟩⟩, ?_⟩
      · rw [← hwhole]
        simp
      · rw [hrest, List.append_nil]
        exact hwhole

/-- What one field takes is what is read from it. -/
theorem readField_eq_some_iff {field : Field} {operands : List Operand} {bytes rest : List UInt8} :
    readField field bytes = some (operands, rest) ↔
      ∃ slot piece, Slot.Spans field slot piece rest ∧ slot.operands = operands ∧
        bytes = piece ++ rest := by
  obtain ⟨hone, htwo, hfour⟩ := numbers_of_width
  constructor
  · intro h
    cases field <;> simp only [readField, Option.map_eq_some_iff, Prod.mk.injEq] at h <;>
      obtain ⟨⟨n, r⟩, hread, rfl, rfl⟩ := h
    case u8 | u16 =>
      obtain ⟨hlt, hbytes⟩ := of_readUnsigned hread
      refine ⟨.number n, _, Slot.Spans.number rfl ?_ _, rfl, ?_⟩
      · exact ⟨by omega, by omega⟩
      · rw [residue_natCast hlt]
        exact hbytes
    case i8 | i16 | i32 =>
      obtain ⟨hlo, hhi, hbytes⟩ := of_readSigned hread
      refine ⟨.number n, _, Slot.Spans.number rfl ?_ _, rfl, hbytes⟩
      exact ⟨by omega, by omega⟩
    case pad =>
      obtain ⟨-, hbytes⟩ := of_readUnsigned hread
      exact ⟨.padding (UInt8.ofNat n), _, ⟨trivial, Or.inl rfl⟩, rfl, hbytes⟩
    case cstr =>
      obtain ⟨piece, hspans, hbytes⟩ := spans_of_readString hread
      exact ⟨.text n, piece, hspans, rfl, hbytes⟩
  · rintro ⟨slot, piece, ⟨hfits, hpiece⟩, rfl, rfl⟩
    rcases hpiece with rfl | ⟨rfl, hne, rfl⟩
    · exact readField_append hfits rest
    · cases field with
      | cstr =>
        rw [List.append_nil, readField, readString_unclosed hfits hne]
        rfl
      | u8 | i8 | u16 | i16 | i32 | pad => exact absurd hfits (by simp [Slot.Fits])

/-- A row of fields takes the bytes `piece` in front of `rest`. -/
inductive RowSpans (rest : List UInt8) : List Field → List Slot → List UInt8 → Prop where
  | nil : RowSpans rest [] [] []
  | cons {field : Field} {row : List Field} {slot : Slot} {slots : List Slot}
      {piece pieces : List UInt8} :
      slot.Spans field piece (pieces ++ rest) → RowSpans rest row slots pieces →
      RowSpans rest (field :: row) (slot :: slots) (piece ++ pieces)

/-- A row is read if and only if the bytes start with one. -/
theorem readFields_eq_some_iff {row : List Field} {operands : List Operand}
    {bytes rest : List UInt8} :
    readFields row bytes = some (operands, rest) ↔
      ∃ slots piece, RowSpans rest row slots piece ∧ slots.flatMap Slot.operands = operands ∧
        bytes = piece ++ rest := by
  induction row generalizing operands bytes with
  | nil =>
    simp only [readFields, Option.some.injEq, Prod.mk.injEq]
    constructor
    · rintro ⟨rfl, rfl⟩
      exact ⟨[], [], .nil, rfl, rfl⟩
    · rintro ⟨slots, piece, hspans, rfl, rfl⟩
      cases hspans
      exact ⟨rfl, rfl⟩
  | cons field row ih =>
    simp only [readFields, Option.bind_eq_bind, Option.bind_eq_some_iff, Option.pure_def,
      Option.some.injEq, Prod.mk.injEq]
    constructor
    · rintro ⟨⟨first, middle⟩, hfirst, ⟨others, last⟩, hothers, rfl, rfl⟩
      obtain ⟨slots, pieces, hrow, rfl, rfl⟩ := ih.mp hothers
      obtain ⟨slot, piece, hslot, rfl, rfl⟩ := readField_eq_some_iff.mp hfirst
      exact ⟨slot :: slots, piece ++ pieces, .cons hslot hrow, List.flatMap_cons,
        (List.append_assoc ..).symm⟩
    · rintro ⟨slots, piece, hspans, rfl, rfl⟩
      cases hspans with
      | @cons _ _ slot slots piece pieces hslot hrow =>
        refine ⟨(slot.operands, pieces ++ rest), ?_, (slots.flatMap Slot.operands, rest), ?_,
          by rw [List.flatMap_cons], rfl⟩
        · exact readField_eq_some_iff.mpr ⟨slot, piece, hslot, rfl, List.append_assoc ..⟩
        · exact ih.mpr ⟨slots, pieces, hrow, rfl, rfl⟩

/-! ## Menus -/

/-- The fields of an option of a menu. -/
def optionRow : List Field :=
  [.i16, .cstr, .u8, .u16, .u8, .cstr]

end Rio.Bytecode

namespace Rio.MenuOption

open Bytecode

/-- What stands in the fields of an option. -/
def slots (o : MenuOption) : List Slot :=
  [.number o.textId, .text o.text, .number o.unknown1, .number o.flag, .number o.unknown2,
    .text o.target]

end Rio.MenuOption

namespace Rio.Bytecode

/-- An option is read as a row of fields is. -/
theorem readFields_optionRow (bytes : List UInt8) :
    readFields optionRow bytes
      = (readOption bytes).map fun (o, rest) => (o.slots.flatMap Slot.operands, rest) := by
  simp only [optionRow, readFields, readField, readOption, Option.bind_eq_bind, Option.pure_def,
    Option.map_bind, Option.bind_map, Function.comp_def, Option.bind_some, Option.map_some,
    Option.bind_assoc]
  rfl

theorem Slot.Fits.exists_number {field : Field} {slot : Slot} (h : slot.Fits field)
    (hwidth : field ≠ .pad ∧ field ≠ .cstr) : ∃ n, slot = .number n := by
  cases slot with
  | number n => exact ⟨n, rfl⟩
  | text s => cases field <;> simp_all [Fits]
  | padding b => cases field <;> simp_all [Fits]

theorem Slot.Fits.exists_text {slot : Slot} (h : slot.Fits .cstr) : ∃ s, slot = .text s := by
  cases slot with
  | number n => exact absurd h (by simp [Fits, Field.Holds])
  | text s => exact ⟨s, rfl⟩
  | padding b => exact absurd h (by simp [Fits])

/-- An option is told by its operands. -/
theorem RowSpans.eq_slots {rest piece : List UInt8} {slots : List Slot} {o : MenuOption}
    (h : RowSpans rest optionRow slots piece)
    (hoperands : slots.flatMap Slot.operands = o.slots.flatMap Slot.operands) :
    slots = o.slots := by
  obtain _ | ⟨⟨h₁, -⟩, _ | ⟨⟨h₂, -⟩, _ | ⟨⟨h₃, -⟩, h⟩⟩⟩ := h
  obtain _ | ⟨⟨h₄, -⟩, _ | ⟨⟨h₅, -⟩, _ | ⟨⟨h₆, -⟩, hnil⟩⟩⟩ := h
  cases hnil
  obtain ⟨textId, rfl⟩ := h₁.exists_number (by decide)
  obtain ⟨text, rfl⟩ := h₂.exists_text
  obtain ⟨unknown1, rfl⟩ := h₃.exists_number (by decide)
  obtain ⟨flag, rfl⟩ := h₄.exists_number (by decide)
  obtain ⟨unknown2, rfl⟩ := h₅.exists_number (by decide)
  obtain ⟨target, rfl⟩ := h₆.exists_text
  simpa [MenuOption.slots, Slot.operands] using hoperands

theorem readOption_eq_some_iff {o : MenuOption} {bytes rest : List UInt8} :
    readOption bytes = some (o, rest) ↔
      ∃ piece, RowSpans rest optionRow o.slots piece ∧ bytes = piece ++ rest := by
  constructor
  · intro h
    have hrow : readFields optionRow bytes = some (o.slots.flatMap Slot.operands, rest) := by
      rw [readFields_optionRow, h]
      rfl
    obtain ⟨slots, piece, hspans, hoperands, hbytes⟩ := readFields_eq_some_iff.mp hrow
    exact ⟨piece, hspans.eq_slots hoperands ▸ hspans, hbytes⟩
  · rintro ⟨piece, hspans, hbytes⟩
    have hrow := readFields_eq_some_iff.mpr ⟨o.slots, piece, hspans, rfl, hbytes⟩
    rw [readFields_optionRow, Option.map_eq_some_iff] at hrow
    obtain ⟨⟨o', rest'⟩, hread, hsame⟩ := hrow
    obtain ⟨hslots, rfl⟩ := Prod.mk.inj hsame
    have ho : o' = o := by
      simp only [MenuOption.slots, List.flatMap_cons, List.flatMap_nil, Slot.operands,
        List.cons_append, List.nil_append, List.cons.injEq, Operand.int.injEq,
        Operand.bytes.injEq, Int.natCast_inj] at hslots
      obtain ⟨h₁, h₂, h₃, h₄, h₅, h₆, -⟩ := hslots
      cases o'
      cases o
      simp_all
    rw [hread, ho]

/-- The options of a menu take the bytes `piece` in front of `rest`. -/
inductive MenuSpans (rest : List UInt8) : List MenuOption → List UInt8 → Prop where
  | nil : MenuSpans rest [] []
  | cons {o : MenuOption} {choices : List MenuOption} {piece pieces : List UInt8} :
      RowSpans (pieces ++ rest) optionRow o.slots piece → MenuSpans rest choices pieces →
      MenuSpans rest (o :: choices) (piece ++ pieces)

/-- By induction on the count, as many choices are read. -/
theorem readOptions_eq_some_iff {n : Nat} {choices : List MenuOption} {bytes rest : List UInt8} :
    readOptions n bytes = some (choices, rest) ↔
      choices.length = n ∧ ∃ piece, MenuSpans rest choices piece ∧ bytes = piece ++ rest := by
  induction n generalizing choices bytes with
  | zero =>
    simp only [readOptions, Option.some.injEq, Prod.mk.injEq]
    constructor
    · rintro ⟨rfl, rfl⟩
      exact ⟨rfl, [], .nil, rfl⟩
    · rintro ⟨hlen, piece, hspans, rfl⟩
      obtain rfl := List.eq_nil_of_length_eq_zero hlen
      cases hspans
      exact ⟨rfl, rfl⟩
  | succ n ih =>
    simp only [readOptions, Option.bind_eq_bind, Option.bind_eq_some_iff, Option.pure_def,
      Option.some.injEq, Prod.mk.injEq]
    constructor
    · rintro ⟨⟨first, middle⟩, hfirst, ⟨others, last⟩, hothers, rfl, rfl⟩
      obtain ⟨hlen, pieces, hmenu, rfl⟩ := ih.mp hothers
      obtain ⟨piece, hrow, rfl⟩ := readOption_eq_some_iff.mp hfirst
      exact ⟨congrArg (· + 1) hlen, piece ++ pieces, .cons hrow hmenu, (List.append_assoc ..).symm⟩
    · rintro ⟨hlen, piece, hspans, rfl⟩
      cases hspans with
      | nil => exact absurd hlen (by simp)
      | @cons o choices piece pieces hrow hmenu =>
        refine ⟨(o, pieces ++ rest), ?_, (choices, rest), ?_, rfl, rfl⟩
        · exact readOption_eq_some_iff.mpr ⟨piece, hrow, List.append_assoc ..⟩
        · exact ih.mpr ⟨Nat.succ.inj hlen, pieces, hmenu, rfl⟩

/-! ## Operands -/

/-- The operands of an operation take the bytes `piece` in front of `rest`. -/
def Body.Spans (d : Descriptor) (piece rest : List UInt8) : Body → Prop
  | row slots =>
    (d.layout = .bare ∨ d.family ≠ some .options) ∧ RowSpans rest d.layout.row slots piece
  | menu choices =>
    d.layout ≠ .bare ∧ d.family = some .options ∧ choices.length ≤ 0xffff ∧
      ∃ records, MenuSpans rest choices records ∧ piece = toLittleEndian 2 choices.length ++ records

/-- What is read as the operands of an operation is what spells them. -/
theorem readOperands_eq_some_iff {d : Descriptor} {operands : List Operand}
    {bytes rest : List UInt8} :
    readOperands d bytes = some (operands, rest) ↔
      ∃ body piece, Body.Spans d piece rest body ∧ body.operands = operands ∧
        bytes = piece ++ rest := by
  obtain ⟨mnemonic, layout, family⟩ := d
  cases layout with
  | bare =>
    simp only [readOperands, Option.some.injEq, Prod.mk.injEq]
    constructor
    · rintro ⟨rfl, rfl⟩
      exact ⟨.row [], [], ⟨Or.inl rfl, .nil⟩, rfl, rfl⟩
    · rintro ⟨body, piece, hspans, rfl, rfl⟩
      cases body with
      | row slots =>
        cases hspans.2
        exact ⟨rfl, rfl⟩
      | menu choices => exact absurd rfl hspans.1
  | fields row =>
    by_cases hfamily : family = some .options
    · subst hfamily
      simp only [readOperands, Option.bind_eq_bind, Option.bind_eq_some_iff, Option.pure_def,
        Option.some.injEq, Prod.mk.injEq]
      constructor
      -- a menu: the count, then as many records
      · rintro ⟨⟨count, middle⟩, hcount, ⟨choices, last⟩, hchoices, rfl, rfl⟩
        obtain ⟨hlt, rfl⟩ := of_readUnsigned hcount
        obtain ⟨hlen, records, hmenu, rfl⟩ := readOptions_eq_some_iff.mp hchoices
        simp only at hlen hlt
        subst hlen
        rw [numbers_of_width.2.1] at hlt
        exact ⟨.menu choices, _, ⟨by simp, rfl, by omega, records, hmenu, rfl⟩, rfl,
          (List.append_assoc ..).symm⟩
      · rintro ⟨body, piece, hspans, rfl, rfl⟩
        cases body with
        | row slots => exact absurd hspans.1 (by simp)
        | menu choices =>
          obtain ⟨-, -, hcount, records, hmenu, rfl⟩ := hspans
          refine ⟨(choices.length, records ++ rest), ?_, (choices, rest), ?_, rfl, rfl⟩
          · rw [List.append_assoc]
            exact readUnsigned_append (numbers_of_width.2.1 ▸ Nat.lt_succ_of_le hcount) _
          · exact readOptions_eq_some_iff.mpr ⟨rfl, records, hmenu, rfl⟩
    · -- only menus read something else than the fields of the row
      have hread : readOperands ⟨mnemonic, .fields row, family⟩ bytes = readFields row bytes := by
        unfold readOperands
        split
        · next heq => exact absurd heq (by simp)
        · next _ hopt => exact absurd hopt hfamily
        · next heq _ => cases heq; rfl
      rw [hread, readFields_eq_some_iff]
      constructor
      · rintro ⟨slots, piece, hspans, rfl, rfl⟩
        exact ⟨.row slots, piece, ⟨Or.inr hfamily, hspans⟩, rfl, rfl⟩
      · rintro ⟨body, piece, hspans, rfl, rfl⟩
        cases body with
        | row slots => exact ⟨slots, piece, hspans.2, rfl, rfl⟩
        | menu choices => exact absurd hspans.2.1 hfamily

end Rio.Bytecode
