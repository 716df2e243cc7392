import Rio.Proofs.Bytecode.Accounting

/-!
# Decoding loses nothing but padding

Terminators, the zeros after strings and the count of a menu are not kept in an instruction, and
yet they can be found again: an instruction is written out with every zero that it may have and
cut to its length. What stays open is the padding alone. `Instruction.stencil` is the instruction
written out like that, and

> `decodeFrom_covers`: a script has the bytes that the stencils of its instructions ask for;
> `decodeFrom_eq_of_covers`: a script that has them is decoded to these instructions.

So two scripts are decoded to the same instructions exactly if they are equally long and agree
wherever no padding lies (`decode_eq_iff`). What a stencil leaves open is the padding:
`decodeFrom_open_iff`.
-/

namespace Rio.Bytecode

/-! ## Stencils -/

/-- Bytes that have what a stencil asks for. Where it is open any byte may stand. -/
def Covers (stencil : List (Option UInt8)) (bytes : List UInt8) : Prop :=
  List.Forall₂ (fun x b => ∀ a ∈ x, a = b) stencil bytes

theorem covers_nil {bytes : List UInt8} : Covers [] bytes ↔ bytes = [] :=
  List.forall₂_nil_left_iff

theorem covers_some {a : UInt8} {stencil : List (Option UInt8)} {bytes : List UInt8} :
    Covers (some a :: stencil) bytes ↔ ∃ rest, bytes = a :: rest ∧ Covers stencil rest := by
  unfold Covers
  rw [List.forall₂_cons_left_iff]
  constructor
  · intro h
    obtain ⟨b, rest, hb, hrest, rfl⟩ := h
    exact ⟨rest, by rw [hb a rfl], hrest⟩
  · intro h
    obtain ⟨rest, rfl, hrest⟩ := h
    exact ⟨a, rest, fun a' ha' => (Option.some.inj ha').symm, hrest, rfl⟩

theorem covers_append {front back : List (Option UInt8)} {bytes : List UInt8} :
    Covers (front ++ back) bytes ↔
      ∃ first last, bytes = first ++ last ∧ Covers front first ∧ Covers back last := by
  constructor
  · intro h
    have hlen := List.Forall₂.length_eq h
    rw [List.length_append] at hlen
    refine ⟨bytes.take front.length, bytes.drop front.length,
      (List.take_append_drop ..).symm, ?_, ?_⟩
    · have htake := List.forall₂_take front.length h
      rwa [List.take_left] at htake
    · have hdrop := List.forall₂_drop front.length h
      rwa [List.drop_left] at hdrop
  · intro h
    obtain ⟨first, last, rfl, hfirst, hlast⟩ := h
    exact List.rel_append hfirst hlast

/-- A stencil without openings is covered by its bytes alone. -/
theorem covers_map_some {asked bytes : List UInt8} :
    Covers (asked.map some) bytes ↔ bytes = asked := by
  induction asked generalizing bytes with
  | nil => exact covers_nil
  | cons a asked ih =>
    rw [List.map_cons, covers_some]
    constructor
    · intro h
      obtain ⟨rest, rfl, hrest⟩ := h
      rw [ih.mp hrest]
    · intro h
      exact ⟨asked, h, ih.mpr rfl⟩

/-- Bytes cover the same stencil if they agree where it is not open. -/
theorem covers_iff_agree {stencil : List (Option UInt8)} {bytes bytes' : List UInt8}
    (h : Covers stencil bytes) :
    Covers stencil bytes' ↔
      bytes.length = bytes'.length ∧ ∀ p : Nat, stencil[p]? ≠ some none →
        bytes[p]? = bytes'[p]? := by
  induction h generalizing bytes' with
  | nil =>
    rw [covers_nil]
    constructor
    · intro h
      rw [h]
      exact ⟨rfl, fun _ _ => rfl⟩
    · intro h
      exact List.length_eq_zero_iff.mp h.1.symm
  | @cons x b stencil bytes hx hrest ih =>
    cases bytes' with
    | nil =>
      constructor
      · intro h
        exact absurd (List.Forall₂.length_eq h) (by simp)
      · intro h
        exact absurd h.1 (by simp)
    | cons b' bytes' =>
      have hcons : Covers (x :: stencil) (b' :: bytes')
          ↔ (∀ a ∈ x, a = b') ∧ Covers stencil bytes' :=
        List.forall₂_cons
      rw [hcons, ih]
      constructor
      · intro h
        obtain ⟨hx', hlen, hagree⟩ := h
        refine ⟨congrArg (· + 1) hlen, fun p hp => ?_⟩
        cases p with
        | zero =>
          -- an open place puts no condition on the byte, and the hypothesis rules it out
          cases x with
          | none => exact absurd rfl hp
          | some a =>
            show some b = some b'
            rw [← hx a rfl, hx' a rfl]
        | succ p => exact hagree p hp
      · intro h
        obtain ⟨hlen, hagree⟩ := h
        refine ⟨fun a ha => ?_, Nat.succ.inj hlen, fun p hp => hagree (p + 1) hp⟩
        have hfirst : some b = some b' := hagree 0 (by
          show some x ≠ some none
          rw [show x = some a from ha]
          simp)
        rw [← Option.some.inj hfirst]
        exact hx a ha

/-! ## Fields -/

/-- The bytes of a field, padding left open. -/
def Slot.stencil (field : Field) : Slot → List (Option UInt8)
  | padding _ => [none]
  | slot => (slot.bytes field).map some

theorem Slot.length_stencil (field : Field) (slot : Slot) :
    (slot.stencil field).length = (slot.bytes field).length := by
  cases slot with
  | padding b => rfl
  | number n | text s => exact List.length_map _

theorem Slot.covers_bytes (field : Field) (slot : Slot) :
    Covers (slot.stencil field) (slot.bytes field) := by
  cases slot with
  | padding b => exact .cons (fun a ha => (by cases ha)) .nil
  | number n | text s => exact covers_map_some.mpr rfl

/-- A string without its zero. -/
theorem Slot.take_stencil_text (field : Field) (s : List UInt8) :
    ((Slot.text s).stencil field).take s.length = s.map some := by
  show ((s ++ [0]).map some).take s.length = s.map some
  rw [← List.map_take, List.take_left]

/-- Bytes that cover a field hold the same operand. -/
theorem Slot.exists_of_covers {field : Field} {slot : Slot} {piece : List UInt8}
    (hfits : slot.Fits field) (h : Covers (slot.stencil field) piece) :
    ∃ slot' : Slot, slot'.Fits field ∧ slot'.operands = slot.operands ∧
      piece = slot'.bytes field := by
  cases slot with
  | padding b =>
    obtain ⟨b', rest, -, hrest, rfl⟩ := List.forall₂_cons_left_iff.mp h
    rw [covers_nil.mp hrest]
    refine ⟨.padding b', ?_, rfl, rfl⟩
    cases field with
    | pad => trivial
    | u8 | i8 | u16 | i16 | i32 | cstr => exact absurd hfits (by simp [Slot.Fits])
  | number n => exact ⟨.number n, hfits, rfl, covers_map_some.mp h⟩
  | text s => exact ⟨.text s, hfits, rfl, covers_map_some.mp h⟩

/-- The bytes of a row of fields, padding left open. -/
def rowStencil : List Field → List Slot → List (Option UInt8)
  | [], _ => []
  | _ :: _, [] => []
  | field :: row, slot :: slots => slot.stencil field ++ rowStencil row slots

/-- A row takes bytes that cover its stencil, as far as they go. -/
theorem RowSpans.covers {row : List Field} {slots : List Slot} {piece rest : List UInt8}
    (h : RowSpans rest row slots piece) :
    Covers ((rowStencil row slots).take piece.length) piece := by
  induction h with
  | nil => exact .nil
  | @cons field row slot slots piece pieces hslot hrow ih =>
    rw [rowStencil]
    obtain ⟨-, rfl | ⟨rfl, -, hend⟩⟩ := hslot
    · rw [List.length_append, ← Slot.length_stencil, List.take_length_add_append, covers_append]
      exact ⟨_, _, rfl, Slot.covers_bytes .., ih⟩
    · -- nothing comes after a string without a zero, so the row ends with it
      obtain ⟨rfl, rfl⟩ := List.append_eq_nil_iff.mp hend
      obtain ⟨rfl, rfl⟩ := hrow.eq_nil rfl
      rw [List.append_nil, rowStencil, List.append_nil, Slot.take_stencil_text]
      exact covers_map_some.mpr rfl

/-- Bytes that cover the stencil of a row, as far as the row went, hold the same operands. -/
theorem RowSpans.of_covers {row : List Field} {slots : List Slot} {piece piece' rest : List UInt8}
    (h : RowSpans rest row slots piece)
    (hcovers : Covers ((rowStencil row slots).take piece.length) piece') :
    ∃ slots', RowSpans rest row slots' piece' ∧
      slots'.flatMap Slot.operands = slots.flatMap Slot.operands := by
  induction h generalizing piece' with
  | nil =>
    rw [covers_nil.mp hcovers]
    exact ⟨[], .nil, rfl⟩
  | @cons field row slot slots piece pieces hslot hrow ih =>
    rw [rowStencil] at hcovers
    obtain ⟨hfits, rfl | ⟨rfl, hne, hend⟩⟩ := hslot
    · rw [List.length_append, ← Slot.length_stencil, List.take_length_add_append, covers_append]
        at hcovers
      obtain ⟨first, last, rfl, hfirst, hlast⟩ := hcovers
      obtain ⟨slot', hfits', hoperands, rfl⟩ := Slot.exists_of_covers hfits hfirst
      obtain ⟨slots', hrow', hrest⟩ := ih hlast
      refine ⟨slot' :: slots', .cons ⟨hfits', Or.inl rfl⟩ hrow', ?_⟩
      rw [List.flatMap_cons, List.flatMap_cons, hoperands, hrest]
    · obtain ⟨rfl, rfl⟩ := List.append_eq_nil_iff.mp hend
      obtain ⟨rfl, rfl⟩ := hrow.eq_nil rfl
      rw [List.append_nil, rowStencil, List.append_nil, Slot.take_stencil_text] at hcovers
      rw [covers_map_some.mp hcovers]
      refine ⟨[.text piece], ?_, rfl⟩
      have hlast : RowSpans [] [field] [.text piece] (piece ++ []) :=
        .cons ⟨hfits, Or.inr ⟨rfl, hne, rfl⟩⟩ .nil
      rwa [List.append_nil] at hlast

/-- Which bytes come next matters only for whether there are any. -/
theorem RowSpans.mono {row : List Field} {slots : List Slot} {piece rest rest' : List UInt8}
    (h : RowSpans rest row slots piece) (hrest : rest = [] → rest' = []) :
    RowSpans rest' row slots piece := by
  induction h with
  | nil => exact .nil
  | @cons field row slot slots piece pieces hslot hrow ih =>
    obtain ⟨hfits, hpiece⟩ := hslot
    refine .cons ⟨hfits, hpiece.imp_right fun hopen => ?_⟩ ih
    obtain ⟨htext, hne, hend⟩ := hopen
    obtain ⟨hpieces, hnil⟩ := List.append_eq_nil_iff.mp hend
    exact ⟨htext, hne, by rw [hpieces, hrest hnil]; rfl⟩

theorem length_rowStencil : ∀ (row : List Field) (slots : List Slot),
    (rowStencil row slots).length = rowWidth row slots
  | [], _ => rfl
  | _ :: _, [] => rfl
  | field :: row, slot :: slots => by
    rw [rowStencil, rowWidth, List.length_append, Slot.length_stencil, Slot.length_bytes,
      length_rowStencil row slots]

/-! ## Menus -/

/-- The bytes of the options of a menu. -/
def menuStencil : List MenuOption → List (Option UInt8)
  | [] => []
  | o :: choices => rowStencil optionRow o.slots ++ menuStencil choices

theorem length_menuStencil (choices : List MenuOption) :
    (menuStencil choices).length = menuWidth choices := by
  induction choices with
  | nil => rfl
  | cons o choices ih =>
    rw [menuStencil, menuWidth, List.length_append, length_rowStencil, rowWidth_slots, ih]

/-- Menus have no padding. -/
theorem none_notMem_menuStencil (choices : List MenuOption) : none ∉ menuStencil choices := by
  induction choices with
  | nil => exact List.not_mem_nil
  | cons o choices ih =>
    have hoption : none ∉ rowStencil optionRow o.slots := by
      simp [optionRow, MenuOption.slots, rowStencil, Slot.stencil]
    rw [menuStencil, List.mem_append]
    exact not_or.mpr ⟨hoption, ih⟩

theorem MenuSpans.covers {choices : List MenuOption} {piece rest : List UInt8}
    (h : MenuSpans rest choices piece) :
    Covers ((menuStencil choices).take piece.length) piece := by
  induction h with
  | nil => exact .nil
  | @cons o choices piece pieces hrow hmenu ih =>
    have hfirst := hrow.covers
    rw [menuStencil, List.length_append]
    rcases hrow.length with hlen | ⟨hend, hlen⟩
    · rw [← length_rowStencil] at hlen
      rw [hlen, List.take_length] at hfirst
      rw [hlen, List.take_length_add_append, covers_append]
      exact ⟨piece, pieces, rfl, hfirst, ih⟩
    · -- an option whose last string has no zero ends the script
      obtain ⟨rfl, -⟩ := List.append_eq_nil_iff.mp hend
      rw [← length_rowStencil] at hlen
      rw [List.length_nil, List.append_nil, Nat.add_zero, List.take_append_of_le_length (by omega)]
      exact hfirst

theorem MenuSpans.mono {choices : List MenuOption} {piece rest rest' : List UInt8}
    (h : MenuSpans rest choices piece) (hrest : rest = [] → rest' = []) :
    MenuSpans rest' choices piece := by
  induction h with
  | nil => exact .nil
  | cons hrow _ ih =>
    refine .cons (hrow.mono fun hend => ?_) ih
    obtain ⟨hpieces, hnil⟩ := List.append_eq_nil_iff.mp hend
    rw [hpieces, hrest hnil]
    rfl

/-! ## Operands -/

/-- The bytes of the operands of an operation, padding left open. -/
def Body.stencil (d : Descriptor) : Body → List (Option UInt8)
  | row slots => rowStencil d.layout.row slots
  | menu choices => (toLittleEndian 2 choices.length).map some ++ menuStencil choices

theorem Body.length_stencil (d : Descriptor) (body : Body) :
    (body.stencil d).length = body.width d := by
  cases body with
  | row slots => exact length_rowStencil ..
  | menu choices =>
    rw [stencil, width, List.length_append, List.length_map, length_toLittleEndian,
      length_menuStencil]

namespace Body.Spans

variable {d : Descriptor} {body : Body} {piece piece' rest rest' : List UInt8}

theorem mono (h : body.Spans d piece rest) (hrest : rest = [] → rest' = []) :
    body.Spans d piece rest' := by
  cases body with
  | row slots => exact ⟨h.1, h.2.mono hrest⟩
  | menu choices =>
    obtain ⟨hlayout, hfamily, hcount, records, hmenu, hpiece⟩ := h
    exact ⟨hlayout, hfamily, hcount, records, hmenu.mono hrest, hpiece⟩

theorem covers (h : body.Spans d piece rest) :
    Covers ((body.stencil d).take piece.length) piece := by
  cases body with
  | row slots => exact h.2.covers
  | menu choices =>
    obtain ⟨-, -, -, records, hmenu, rfl⟩ := h
    have hcount : ((toLittleEndian 2 choices.length).map some).length
        = (toLittleEndian 2 choices.length).length := List.length_map _
    rw [Body.stencil, List.length_append, ← hcount, List.take_length_add_append, covers_append]
    exact ⟨_, records, rfl, covers_map_some.mpr rfl, hmenu.covers⟩

/-- A menu has no padding. -/
theorem none_notMem {choices : List MenuOption} (n : Nat) :
    none ∉ (Body.stencil d (.menu choices)).take n := by
  intro hmem
  rcases List.mem_append.mp (List.mem_of_mem_take hmem) with hcount | hmenu
  · obtain ⟨b, -, hb⟩ := List.mem_map.mp hcount
    cases hb
  · exact none_notMem_menuStencil choices hmenu

/-- Bytes that cover the stencil of operands, as far as these went, hold the same operands. -/
theorem of_covers (h : body.Spans d piece rest)
    (hcovers : Covers ((body.stencil d).take piece.length) piece') :
    ∃ body' : Body, body'.Spans d piece' rest ∧ body'.operands = body.operands := by
  cases body with
  | row slots =>
    obtain ⟨slots', hrow, hoperands⟩ := h.2.of_covers hcovers
    exact ⟨.row slots', ⟨h.1, hrow⟩, hoperands⟩
  | menu choices =>
    -- a menu has no padding, so there is no other piece
    obtain ⟨-, hagree⟩ := (covers_iff_agree h.covers).mp hcovers
    have hsame : piece = piece' := by
      apply List.ext_getElem?
      intro p
      exact hagree p fun hopen => none_notMem _ (List.mem_of_getElem? hopen)
    exact ⟨.menu choices, hsame ▸ h, rfl⟩

end Body.Spans

/-- What stands in the fields of a row that has operands. Padding has none, and is left zero. -/
def fieldSlots : List Field → List Operand → List Slot
  | .pad :: row, operands => .padding 0 :: fieldSlots row operands
  | _ :: row, .int n :: operands => .number n :: fieldSlots row operands
  | _ :: row, .bytes s :: operands => .text s :: fieldSlots row operands
  | _, _ => []

/-- The operands of an operation as they lie in a script. -/
def Body.ofOperands (d : Descriptor) : List Operand → Body
  | [.options choices] => .menu choices
  | operands => .row (fieldSlots d.layout.row operands)

/-- A field with its padding zero. -/
def Slot.blank : Slot → Slot
  | padding _ => padding 0
  | slot => slot

theorem rowStencil_blank : ∀ (row : List Field) (slots : List Slot),
    rowStencil row (slots.map Slot.blank) = rowStencil row slots
  | [], _ => rfl
  | _ :: _, [] => rfl
  | field :: row, slot :: slots => by
    have hslot : slot.blank.stencil field = slot.stencil field := by cases slot <;> rfl
    rw [List.map_cons, rowStencil, rowStencil, hslot, rowStencil_blank row slots]

theorem rowWidth_blank : ∀ (row : List Field) (slots : List Slot),
    rowWidth row (slots.map Slot.blank) = rowWidth row slots
  | [], _ => rfl
  | _ :: _, [] => rfl
  | field :: row, slot :: slots => by
    have hslot : slot.blank.width field = slot.width field := by cases slot <;> rfl
    rw [List.map_cons, rowWidth, rowWidth, hslot, rowWidth_blank row slots]

/-- The fields of a row are known from its operands, padding aside. -/
theorem RowSpans.fieldSlots_eq {row : List Field} {slots : List Slot} {piece rest : List UInt8}
    (h : RowSpans rest row slots piece) :
    fieldSlots row (slots.flatMap Slot.operands) = slots.map Slot.blank := by
  induction h with
  | nil => rfl
  | @cons field row slot slots piece pieces hslot hrow ih =>
    have hfits := hslot.1
    rw [List.flatMap_cons, List.map_cons, ← ih]
    cases slot with
    | padding b =>
      cases field with
      | pad => rfl
      | u8 | i8 | u16 | i16 | i32 | cstr => exact absurd hfits (by simp [Slot.Fits])
    | number n =>
      cases field with
      | u8 | i8 | u16 | i16 | i32 => rfl
      | pad | cstr => exact absurd hfits (by simp [Slot.Fits, Field.Holds])
    | text s =>
      cases field with
      | cstr => rfl
      | u8 | i8 | u16 | i16 | i32 | pad => exact absurd hfits (by simp [Slot.Fits])

/-- No field holds the options of a menu. -/
theorem options_notMem_operands (slots : List Slot) (choices : List MenuOption) :
    .options choices ∉ slots.flatMap Slot.operands := by
  intro hmem
  obtain ⟨slot, -, hslot⟩ := List.mem_flatMap.mp hmem
  cases slot <;> simp [Slot.operands] at hslot

theorem Body.Spans.stencil_ofOperands {d : Descriptor} {body : Body} {piece rest : List UInt8}
    (h : body.Spans d piece rest) :
    (Body.ofOperands d body.operands).stencil d = body.stencil d := by
  cases body with
  | menu choices => rfl
  | row slots =>
    have hbody : Body.ofOperands d (Body.row slots).operands
        = .row (fieldSlots d.layout.row (slots.flatMap Slot.operands)) := by
      unfold Body.ofOperands
      split
      · next choices heq =>
        refine absurd ?_ (options_notMem_operands slots choices)
        rw [show slots.flatMap Slot.operands = [.options choices] from heq]
        exact List.mem_singleton.mpr rfl
      · rfl
    rw [hbody, h.2.fieldSlots_eq]
    exact rowStencil_blank ..

end Rio.Bytecode

namespace Rio

open Bytecode

/-- The byte that an invalid instruction shows. -/
def Operand.byte? : Operand → Option UInt8
  | .int n => some (UInt8.ofNat n.toNat)
  | _ => none

namespace Instruction

/-- What an instruction has after its operation byte, without its terminator. -/
def operandStencil (version : Version) (i : Instruction) : List (Option UInt8) :=
  if i.mnemonic = .invalid then i.operands.map Operand.byte?
  else
    match i.opcode.bind version.descriptor? with
    | some d => (Body.ofOperands d i.operands).stencil d
    | none => []

/-- An instruction written out with every zero that it may have, and cut to its length. A zero
that is missing is always the last byte. -/
def stencil (version : Version) (i : Instruction) : List (Option UInt8) :=
  match i.opcode with
  | some op => (some op :: (i.operandStencil version ++ [some 0])).take i.len
  | none => []

end Instruction

end Rio

namespace Rio.Bytecode

/-! ## Instructions -/

/-- The instruction at `addr` with the operation byte `op` takes the bytes `spent` in front of
`left`: `found` is the instruction, and the marker behind it if its terminator is missing. -/
inductive InstructionSpans (version : Version) (addr : Nat) (op : UInt8) :
    List UInt8 → List UInt8 → List Instruction → Prop where
  | skipped {junk left : List UInt8} (unknown : version.descriptor? op = none)
      (nonzero : 0 ∉ junk) :
      InstructionSpans version addr op (junk ++ [0]) left
        [invalid addr (1 + junk.length + 1) op junk]
  | unclosed {junk : List UInt8} (unknown : version.descriptor? op = none) (nonzero : 0 ∉ junk) :
      InstructionSpans version addr op junk [] [invalid addr (1 + junk.length) op junk]
  | truncated {d : Descriptor} {junk : List UInt8} (known : version.descriptor? op = some d)
      (unread : readOperands d junk = none) :
      InstructionSpans version addr op junk [] [invalid addr (1 + junk.length) op junk]
  | regular {d : Descriptor} {body : Body} {piece closing left : List UInt8} {missing : Bool}
      (known : version.descriptor? op = some d) (spelled : body.Spans d piece (closing ++ left))
      (closed : takeTerminator d (closing ++ left) = (missing, left)) :
      InstructionSpans version addr op (piece ++ closing) left
        (⟨addr, 1 + piece.length + closing.length, some op, d.mnemonic, body.operands⟩ ::
          if missing then [.marker (addr + (1 + piece.length + closing.length)) .notTerminated]
          else [])

/-- Whatever bytes come after an operation byte, an instruction takes some of them. -/
theorem exists_instructionSpans (version : Version) (addr : Nat) (op : UInt8) (tail : List UInt8) :
    ∃ spent left found, tail = spent ++ left ∧
      InstructionSpans version addr op spent left found := by
  cases hd : version.descriptor? op with
  | none =>
    obtain ⟨hzero, hclosed | ⟨hwhole, -⟩⟩ := split_at_zero tail
    · refine ⟨tail.takeWhile (· != 0) ++ [0], (tail.dropWhile (· != 0)).drop 1, _, ?_,
        .skipped hd hzero⟩
      rw [List.append_assoc, List.singleton_append]
      exact hclosed
    · rw [← hwhole] at hzero
      exact ⟨tail, [], _, (List.append_nil _).symm, .unclosed hd hzero⟩
  | some d =>
    cases hread : readOperands d tail with
    | none => exact ⟨tail, [], _, (List.append_nil _).symm, .truncated hd hread⟩
    | some read =>
      obtain ⟨operands, rest⟩ := read
      obtain ⟨body, piece, hspans, -, htail⟩ := readOperands_eq_some_iff.mp hread
      obtain ⟨closing, hclosing⟩ := (takeTerminator_cases d rest).2.1
      have hclosed : takeTerminator d (closing ++ (takeTerminator d rest).2)
          = ((takeTerminator d rest).1, (takeTerminator d rest).2) := by rw [hclosing]
      rw [← hclosing] at hspans htail
      exact ⟨piece ++ closing, _, _, htail.trans (List.append_assoc ..).symm,
        .regular hd hspans hclosed⟩

/-- Bytes that an instruction takes are read as this instruction. -/
theorem InstructionSpans.readInstruction_eq {version : Version} {addr : Nat} {op : UInt8}
    {spent left : List UInt8} {found : List Instruction}
    (h : InstructionSpans version addr op spent left found) :
    readInstruction version false addr op (spent ++ left) = (found, left) := by
  cases h with
  | @skipped junk left hunknown hzero =>
    -- the scan for the closing zero stops behind the junk, which holds none
    have hall := bne_zero_of_notMem hzero
    have hlen : 1 + (junk ++ 0 :: left).length - left.length = 1 + junk.length + 1 := by
      rw [List.length_append, List.length_cons]
      omega
    have htake : (junk ++ 0 :: left).takeWhile (· != 0) = junk := by
      rw [List.takeWhile_append_of_pos hall, List.takeWhile_cons_of_neg (by decide),
        List.append_nil]
    have hdrop : ((junk ++ 0 :: left).dropWhile (· != 0)).drop 1 = left := by
      rw [List.dropWhile_append_of_pos hall, List.dropWhile_cons_of_neg (by decide), List.drop_one,
        List.tail_cons]
    rw [List.append_assoc, List.singleton_append]
    unfold readInstruction
    rw [hunknown]
    dsimp only
    rw [htake, hdrop, hlen]
  | unclosed hunknown hzero =>
    have hall := bne_zero_of_notMem hzero
    unfold readInstruction
    rw [hunknown, List.append_nil]
    dsimp only
    rw [List.takeWhile_eq_self_iff.mpr hall, List.dropWhile_eq_nil_iff.mpr hall]
    rfl
  | truncated hknown hunread =>
    unfold readInstruction
    rw [hknown, List.append_nil]
    dsimp only
    rw [hunread]
  | @regular d body piece closing left missing hknown hspelled hclosed =>
    have hread : readOperands d (piece ++ closing ++ left)
        = some (body.operands, closing ++ left) :=
      readOperands_eq_some_iff.mpr ⟨body, piece, hspelled, rfl, List.append_assoc ..⟩
    have hlen : 1 + (piece ++ closing ++ left).length - left.length
        = 1 + piece.length + closing.length := by
      rw [List.length_append, List.length_append]
      omega
    unfold readInstruction
    rw [hknown]
    dsimp only
    rw [hread]
    dsimp only
    rw [hclosed, hlen]
    cases missing <;> rfl

/-! ## Stencils of instructions -/

theorem stencil_marker (version : Version) (addr : Nat) (m : Mnemonic) :
    (Instruction.marker addr m).stencil version = [] := rfl

/-- An invalid instruction shows its bytes, and its length tells whether a zero closed it. -/
theorem stencil_invalid (version : Version) (addr : Nat) (op : UInt8) (junk : List UInt8)
    {closing : List UInt8} (h : closing = [] ∨ closing = [0]) :
    (invalid addr (1 + junk.length + closing.length) op junk).stencil version
      = (op :: (junk ++ closing)).map some := by
  have hshown : (numbers junk).map Operand.byte? = junk.map some := by
    unfold numbers
    rw [List.map_map]
    refine List.map_congr_left fun b _ => ?_
    show some (UInt8.ofNat (Int.toNat b.toNat)) = some b
    rw [Int.toNat_natCast, UInt8.ofNat_toNat]
  have hcut : (op :: (junk ++ [0])).take (1 + junk.length + closing.length)
      = op :: (junk ++ closing) := by
    rw [Nat.add_assoc, Nat.add_comm 1, List.take_succ_cons, List.take_length_add_append]
    rcases h with rfl | rfl <;> rfl
  show (some op :: ((numbers junk).map Operand.byte? ++ [some 0])).take _ = _
  rw [hshown, ← hcut, List.map_take, List.map_cons, List.map_append]
  rfl

/-- A terminator is one zero byte, if it is there. -/
theorem closing_cases {d : Descriptor} {closing left : List UInt8} {missing : Bool}
    (h : takeTerminator d (closing ++ left) = (missing, left)) : closing = [] ∨ closing = [0] := by
  obtain ⟨hlen, -, -⟩ := takeTerminator_cases d (closing ++ left)
  rw [h, List.length_append] at hlen
  cases closing with
  | nil => exact Or.inl rfl
  | cons b closing =>
    dsimp only at hlen
    rw [List.length_cons] at hlen
    split at hlen
    · next hhead =>
      have hnil : closing = [] := List.eq_nil_of_length_eq_zero (by omega)
      rw [hnil, Option.some.inj hhead.2]
      exact Or.inr rfl
    · omega

/-- Whether a terminator is missing is told by the next byte. -/
theorem takeTerminator_congr {d : Descriptor} {closing left left' : List UInt8} {missing : Bool}
    (h : takeTerminator d (closing ++ left) = (missing, left)) (hhead : left'.head? = left.head?) :
    takeTerminator d (closing ++ left') = (missing, left') := by
  have hcases := closing_cases h
  unfold takeTerminator at h ⊢
  generalize d.expectsTerminator = expects at h ⊢
  rcases hcases with rfl | rfl
  · rw [List.nil_append] at h ⊢
    cases left with
    | nil =>
      rw [List.head?_eq_none_iff.mp hhead]
      exact h
    | cons b left =>
      obtain ⟨later, rfl⟩ := List.head?_eq_some_iff.mp hhead
      cases expects with
      | false => exact Prod.ext (Prod.mk.inj h).1 rfl
      | true =>
        dsimp only at h ⊢
        split at h
        · exact absurd (Prod.mk.inj h).2.symm (List.cons_ne_self _ _)
        · next hb =>
          rw [if_neg hb]
          exact Prod.ext (Prod.mk.inj h).1 rfl
  · cases expects with
    | false => exact absurd (Prod.mk.inj h).2 (List.cons_ne_self _ _)
    | true => exact Prod.ext (Prod.mk.inj h).1 rfl

/-- The invalid aside, no operation is called so. -/
theorem descriptor?_mnemonic_ne_invalid {version : Version} {op : UInt8} {d : Descriptor}
    (h : version.descriptor? op = some d) : d.mnemonic ≠ .invalid := by
  have hall : ∀ e ∈ version.overlay ++ baseEntries, e.2.mnemonic ≠ .invalid := by
    cases version <;> decide
  exact hall _ (mem_of_descriptor? h)

/-- What is cut off a regular instruction is the zero of its last string or its terminator. -/
theorem stencil_regular {version : Version} {op : UInt8} {d : Descriptor} {body : Body}
    {piece closing left : List UInt8} {missing : Bool} (hknown : version.descriptor? op = some d)
    (hspelled : body.Spans d piece (closing ++ left))
    (hclosed : takeTerminator d (closing ++ left) = (missing, left)) (addr : Nat) :
    Instruction.stencil version
        ⟨addr, 1 + piece.length + closing.length, some op, d.mnemonic, body.operands⟩
      = some op :: ((body.stencil d).take piece.length ++ closing.map some) := by
  have hoperands : Instruction.operandStencil version
      ⟨addr, 1 + piece.length + closing.length, some op, d.mnemonic, body.operands⟩
        = body.stencil d := by
    unfold Instruction.operandStencil
    rw [if_neg (descriptor?_mnemonic_ne_invalid hknown)]
    dsimp only [Option.bind_some]
    rw [hknown]
    exact hspelled.stencil_ofOperands
  have hcut : Instruction.stencil version
      ⟨addr, 1 + piece.length + closing.length, some op, d.mnemonic, body.operands⟩
      = some op :: (body.stencil d ++ [some 0]).take (piece.length + closing.length) := by
    show (some op :: (Instruction.operandStencil version _ ++ [some 0])).take _ = _
    rw [hoperands, show 1 + piece.length + closing.length
      = piece.length + closing.length + 1 by omega]
    rfl
  rw [hcut]
  congr 1
  rcases closing_cases hclosed with rfl | rfl
  · have hle : piece.length ≤ (body.stencil d).length := by
      rw [Body.length_stencil]
      rcases hspelled.length with hlen | ⟨-, hlen⟩ <;> omega
    rw [List.map_nil, List.append_nil, List.length_nil, Nat.add_zero,
      List.take_append_of_le_length hle]
  · -- bytes come after the operands, so they have all their zeros
    have hlen : piece.length = (body.stencil d).length := by
      rw [Body.length_stencil]
      rcases hspelled.length with hlen | ⟨hnil, -⟩
      · exact hlen
      · exact absurd hnil (by simp)
    rw [hlen, List.take_length]
    exact List.take_of_length_le (by simp)

namespace InstructionSpans

variable {version : Version} {addr : Nat} {op op' : UInt8} {spent spent' left left' : List UInt8}
  {found : List Instruction}

/-- A marker adds nothing to the stencil of its instruction. -/
theorem flatMap_stencil (version : Version) (i : Instruction) (missing : Bool) (next : Nat) :
    (i :: if missing then [.marker next .notTerminated] else []).flatMap
      (Instruction.stencil version)
      = i.stencil version := by
  cases missing with
  | false => rw [if_neg Bool.false_ne_true, List.flatMap_cons, List.flatMap_nil, List.append_nil]
  | true =>
    rw [if_pos rfl, List.flatMap_cons, List.flatMap_cons, List.flatMap_nil, stencil_marker,
      List.append_nil, List.append_nil]

/-- The bytes of an instruction that is not regular are all known. -/
theorem covers_invalid {junk closing bytes : List UInt8} (h : closing = [] ∨ closing = [0]) :
    Covers ([invalid addr (1 + junk.length + closing.length) op junk].flatMap
      (Instruction.stencil version))
      bytes ↔ bytes = op :: (junk ++ closing) := by
  rw [List.flatMap_singleton, stencil_invalid version addr op junk h, covers_map_some]

/-- An instruction takes bytes that cover its stencil. -/
theorem covers (h : InstructionSpans version addr op spent left found) :
    Covers (found.flatMap (Instruction.stencil version)) (op :: spent) := by
  cases h with
  | skipped => exact (covers_invalid (Or.inr rfl)).mpr rfl
  | unclosed | truncated => exact (covers_invalid (Or.inl rfl)).mpr (by rw [List.append_nil])
  | regular hknown hspelled hclosed =>
    rw [flatMap_stencil, stencil_regular hknown hspelled hclosed, covers_some]
    exact ⟨_, rfl, covers_append.mpr ⟨_, _, rfl, hspelled.covers, covers_map_some.mpr rfl⟩⟩

/-- The stencil of an instruction starts with its operation byte. -/
theorem exists_cons_of_covers (h : InstructionSpans version addr op spent left found)
    {bytes : List UInt8} (hcovers : Covers (found.flatMap (Instruction.stencil version)) bytes) :
    ∃ spent', bytes = op :: spent' := by
  cases h with
  | skipped => exact ⟨_, (covers_invalid (Or.inr rfl)).mp hcovers⟩
  | unclosed | truncated => exact ⟨_, (covers_invalid (Or.inl rfl)).mp hcovers⟩
  | regular hknown hspelled hclosed =>
    rw [flatMap_stencil, stencil_regular hknown hspelled hclosed, covers_some] at hcovers
    obtain ⟨rest, hbytes, -⟩ := hcovers
    exact ⟨rest, hbytes⟩

/-- Bytes that cover the stencil of an instruction are taken as this instruction. -/
theorem of_covers (h : InstructionSpans version addr op spent left found)
    (hcovers : Covers (found.flatMap (Instruction.stencil version)) (op :: spent'))
    (hhead : left'.head? = left.head?) : InstructionSpans version addr op spent' left' found := by
  cases h with
  | skipped hunknown hzero =>
    rw [(List.cons.inj ((covers_invalid (Or.inr rfl)).mp hcovers)).2]
    exact .skipped hunknown hzero
  | unclosed hunknown hzero =>
    rw [(List.cons.inj ((covers_invalid (Or.inl rfl)).mp hcovers)).2, List.append_nil,
      List.head?_eq_none_iff.mp hhead]
    exact .unclosed hunknown hzero
  | truncated hknown hunread =>
    rw [(List.cons.inj ((covers_invalid (Or.inl rfl)).mp hcovers)).2, List.append_nil,
      List.head?_eq_none_iff.mp hhead]
    exact .truncated hknown hunread
  | @regular d body piece closing left missing hknown hspelled hclosed =>
    rw [flatMap_stencil, stencil_regular hknown hspelled hclosed, covers_some] at hcovers
    obtain ⟨rest, heq, hcovers⟩ := hcovers
    rw [(List.cons.inj heq).2]
    obtain ⟨piece', closing', rfl, hpiece, hclosing⟩ := covers_append.mp hcovers
    obtain rfl := covers_map_some.mp hclosing
    have hlen : piece'.length = piece.length := by
      rw [← List.Forall₂.length_eq hpiece, List.Forall₂.length_eq hspelled.covers]
    obtain ⟨body', hspelled', hoperands⟩ := hspelled.of_covers hpiece
    have hleft : closing' ++ left = [] → closing' ++ left' = [] := by
      intro hnil
      obtain ⟨hempty, rfl⟩ := List.append_eq_nil_iff.mp hnil
      rw [hempty, List.head?_eq_none_iff.mp hhead]
      rfl
    rw [← hlen, ← hoperands]
    exact .regular hknown (hspelled'.mono hleft) (takeTerminator_congr hclosed hhead)

/-- Decoding goes on behind the bytes of an instruction. -/
theorem decodeFrom_eq (h : InstructionSpans version addr op spent left found) :
    decodeFrom version false addr (op :: (spent ++ left))
      = found ++ decodeFrom version false (addr + (1 + spent.length)) left := by
  have hlen : 1 + (spent ++ left).length - left.length = 1 + spent.length := by
    rw [List.length_append]
    omega
  rw [decodeFrom, h.readInstruction_eq]
  dsimp only
  rw [hlen]

end InstructionSpans

/-! ## Scripts -/

/-- What holds at the end of a script, and before an instruction if it holds behind it, holds of
every script. -/
@[elab_as_elim]
theorem script_induction (version : Version) {motive : Nat → List UInt8 → Prop}
    (done : ∀ addr, motive addr [])
    (step : ∀ addr op spent left found, InstructionSpans version addr op spent left found →
      motive (addr + (1 + spent.length)) left → motive addr (op :: (spent ++ left)))
    (addr : Nat) (bytes : List UInt8) : motive addr bytes := by
  induction hlen : bytes.length using Nat.strong_induction_on generalizing addr bytes with
  | _ n ih =>
    cases bytes with
    | nil => exact done addr
    | cons op tail =>
      obtain ⟨spent, left, found, rfl, hspans⟩ := exists_instructionSpans version addr op tail
      rw [List.length_cons, List.length_append] at hlen
      exact step addr op spent left found hspans (ih left.length (by omega) _ left rfl)

/-- A script has the bytes that the stencils of its instructions ask for. -/
theorem decodeFrom_covers (version : Version) (addr : Nat) (bytes : List UInt8) :
    Covers ((decodeFrom version false addr bytes).flatMap (Instruction.stencil version)) bytes := by
  induction addr, bytes using script_induction version with
  | done addr =>
    rw [decodeFrom]
    exact .nil
  | step addr op spent left found hspans ih =>
    rw [hspans.decodeFrom_eq, List.flatMap_append, ← List.cons_append]
    exact covers_append.mpr ⟨_, _, rfl, hspans.covers, ih⟩

/-- A script that has the bytes that the stencils ask for is decoded to their instructions. That
it starts with the same byte is what an instruction before it looks at for its terminator. -/
theorem decodeFrom_eq_of_covers {version : Version} {addr : Nat} {bytes bytes' : List UInt8}
    (h : Covers ((decodeFrom version false addr bytes).flatMap
      (Instruction.stencil version)) bytes') :
    bytes'.head? = bytes.head? ∧ decodeFrom version false addr bytes'
      = decodeFrom version false addr bytes := by
  induction addr, bytes using script_induction version generalizing bytes' with
  | done addr =>
    rw [decodeFrom] at h
    rw [covers_nil.mp h]
    exact ⟨rfl, rfl⟩
  | step addr op spent left found hspans ih =>
    rw [hspans.decodeFrom_eq, List.flatMap_append] at h
    obtain ⟨first, left', rfl, hfirst, hleft⟩ := covers_append.mp h
    obtain ⟨spent', rfl⟩ := hspans.exists_cons_of_covers hfirst
    obtain ⟨hhead, hdecoded⟩ := ih hleft
    have hlen : spent'.length = spent.length := by
      have hspent :=
        (List.Forall₂.length_eq hfirst).symm.trans (List.Forall₂.length_eq hspans.covers)
      exact Nat.succ.inj hspent
    refine ⟨rfl, ?_⟩
    rw [List.cons_append, (hspans.of_covers hfirst hhead).decodeFrom_eq, hspans.decodeFrom_eq,
      hlen, hdecoded]

/-! ## Padding -/

/-- A stencil without openings is nowhere open. -/
theorem getElem?_map_some_ne (asked : List UInt8) (q : Nat) : (asked.map some)[q]? ≠ some none := by
  rw [List.getElem?_map]
  cases asked[q]? with
  | none => exact fun h => (by cases h)
  | some a => exact fun h => (by cases h)

/-- The stencil of a field is open if the field is padding. -/
theorem Slot.open_iff {field : Field} {slot : Slot} (hfits : slot.Fits field) (q : Nat) :
    (slot.stencil field)[q]? = some none ↔ field = .pad ∧ q = 0 := by
  cases slot with
  | padding b =>
    cases field with
    | pad => cases q <;> simp [Slot.stencil]
    | u8 | i8 | u16 | i16 | i32 | cstr => exact absurd hfits (by simp [Slot.Fits])
  | number n | text s =>
    refine iff_of_false (getElem?_map_some_ne _ q) fun h => ?_
    rw [h.1] at hfits
    exact absurd hfits (by simp [Slot.Fits, Field.Holds])

/-- The padding of a row is its first field, or padding of the rest of the row. -/
theorem exists_pad_cons {field : Field} {row : List Field} {slot : Slot} {slots : List Slot}
    {q : Nat} :
    (∃ before after, field :: row = before ++ .pad :: after ∧ q = rowWidth before (slot :: slots)) ↔
      (field = .pad ∧ q = 0) ∨
        ∃ before after, row = before ++ .pad :: after ∧
          q = slot.width field + rowWidth before slots := by
  constructor
  · intro h
    obtain ⟨before, after, hrow, rfl⟩ := h
    cases before with
    | nil => exact Or.inl ⟨(List.cons.inj hrow).1, rfl⟩
    | cons first before =>
      obtain ⟨rfl, htail⟩ := List.cons.inj hrow
      exact Or.inr ⟨before, after, htail, rfl⟩
  · intro h
    rcases h with ⟨rfl, rfl⟩ | ⟨before, after, rfl, rfl⟩
    · exact ⟨[], row, rfl, rfl⟩
    · exact ⟨field :: before, after, rfl, rfl⟩

/-- The stencil of a row is open where its padding lies. -/
theorem RowSpans.open_iff {row : List Field} {slots : List Slot} {piece rest : List UInt8}
    (h : RowSpans rest row slots piece) (q : Nat) :
    ((rowStencil row slots).take piece.length)[q]? = some none ↔
      ∃ before after, row = before ++ .pad :: after ∧ q = rowWidth before slots := by
  induction h generalizing q with
  | nil => simp
  | @cons field row slot slots piece pieces hslot hrow ih =>
    rw [exists_pad_cons, rowStencil]
    obtain ⟨hfits, rfl | ⟨rfl, -, hend⟩⟩ := hslot
    -- the slot is whole: `q` lies in it, or behind it in the slots that follow
    · have hlen : (slot.stencil field).length = slot.width field := by
        rw [Slot.length_stencil, Slot.length_bytes]
      rw [List.length_append, ← Slot.length_stencil, List.take_length_add_append,
        List.getElem?_append]
      split
      · next hlt =>
        rw [Slot.open_iff hfits]
        refine (or_iff_left fun hlater => ?_).symm
        obtain ⟨before, after, -, rfl⟩ := hlater
        omega
      · next hge =>
        rw [ih]
        have hfirst : ¬(field = .pad ∧ q = 0) := by
          intro hpad
          obtain ⟨hin, -⟩ := List.getElem?_eq_some_iff.mp ((Slot.open_iff hfits q).mpr hpad)
          exact hge hin
        rw [or_iff_right hfirst]
        refine exists_congr fun before => exists_congr fun after => and_congr_right fun _ => ?_
        omega
    -- a text cut short by the end of the script: nothing follows, and no place in it is open
    · obtain ⟨rfl, rfl⟩ := List.append_eq_nil_iff.mp hend
      obtain ⟨rfl, rfl⟩ := hrow.eq_nil rfl
      rw [List.append_nil, rowStencil, List.append_nil, Slot.take_stencil_text]
      refine iff_of_false (getElem?_map_some_ne _ q) fun hpad => ?_
      rcases hpad with hfirst | ⟨before, after, hnil, -⟩
      · exact getElem?_map_some_ne _ q ((Slot.open_iff hfits q).mpr hfirst)
      · exact absurd hnil (by simp)

/-- The layout of a menu has no padding. -/
theorem pad_notMem_of_options {version : Version} {op : UInt8} {d : Descriptor}
    (h : version.descriptor? op = some d) (hfamily : d.family = some .options) :
    .pad ∉ d.layout.row := by
  have hall : ∀ e ∈ version.overlay ++ baseEntries, e.2.family = some .options →
      .pad ∉ e.2.layout.row := by
    cases version <;> decide
  exact hall _ (mem_of_descriptor? h) hfamily

/-- The stencil of operands is open where their padding lies. -/
theorem Body.Spans.open_iff {version : Version} {op : UInt8} {d : Descriptor} {body : Body}
    {piece rest : List UInt8} (hknown : version.descriptor? op = some d)
    (h : body.Spans d piece rest) (q : Nat) :
    ((body.stencil d).take piece.length)[q]? = some none ↔
      ∃ before after, d.layout.row = before ++ .pad :: after ∧
        q = rowWidth before (fieldSlots d.layout.row body.operands) := by
  cases body with
  | row slots =>
    show _ ↔ ∃ before after, _ ∧ q = rowWidth before (fieldSlots _ (slots.flatMap Slot.operands))
    rw [h.2.fieldSlots_eq]
    simp only [rowWidth_blank]
    exact h.2.open_iff q
  | menu choices =>
    refine iff_of_false (fun hopen => ?_) fun hpad => ?_
    · exact none_notMem _ (List.mem_of_getElem? hopen)
    · obtain ⟨before, after, hrow, -⟩ := hpad
      exact pad_notMem_of_options hknown h.2.1 (by rw [hrow]; simp)

end Rio.Bytecode

namespace Rio

open Bytecode

/-- The byte `q` of an instruction is padding: it lies in a padding field, behind the operation
byte and the fields before that one. -/
def Instruction.IsPadding (version : Version) (i : Instruction) (q : Nat) : Prop :=
  ∃ d before after, i.opcode.bind version.descriptor? = some d ∧ i.mnemonic ≠ .invalid ∧
    d.layout.row = before ++ .pad :: after ∧
      q = 1 + rowWidth before (fieldSlots d.layout.row i.operands)

end Rio

namespace Rio.Bytecode

theorem getElem?_append_map_some {stencil : List (Option UInt8)} {asked : List UInt8} {p : Nat} :
    (stencil ++ asked.map some)[p]? = some none ↔ stencil[p]? = some none := by
  rw [List.getElem?_append]
  split
  · exact Iff.rfl
  · next hge =>
    refine iff_of_false (getElem?_map_some_ne _ _) fun hopen => ?_
    exact hge (List.getElem?_eq_some_iff.mp hopen).1

/-- The stencil of an instruction is open where its padding lies. -/
theorem InstructionSpans.open_iff {version : Version} {addr : Nat} {op : UInt8}
    {spent left : List UInt8} {found : List Instruction}
    (h : InstructionSpans version addr op spent left found) (p : Nat) :
    (found.flatMap (Instruction.stencil version))[p]? = some none ↔
      ∃ i ∈ found, ∃ q, i.IsPadding version q ∧ addr + p = i.addr + q := by
  have hinvalid (junk : List UInt8) {closing : List UInt8}
      (hclosing : closing = [] ∨ closing = [0]) :
      ([invalid addr (1 + junk.length + closing.length) op junk].flatMap
        (Instruction.stencil version))[p]?
          = some none ↔
        ∃ i ∈ [invalid addr (1 + junk.length + closing.length) op junk],
          ∃ q, i.IsPadding version q ∧ addr + p = i.addr + q := by
    rw [List.flatMap_singleton, stencil_invalid version addr op junk hclosing]
    refine iff_of_false (getElem?_map_some_ne _ p) fun hpad => ?_
    obtain ⟨i, hi, q, ⟨d, before, after, -, hne, -⟩, -⟩ := hpad
    rw [List.mem_singleton.mp hi] at hne
    exact hne rfl
  cases h with
  | skipped => exact hinvalid _ (Or.inr rfl)
  | unclosed | truncated => exact hinvalid _ (Or.inl rfl)
  | @regular d body piece closing left missing hknown hspelled hclosed =>
    rw [flatMap_stencil, stencil_regular hknown hspelled hclosed]
    constructor
    · intro hopen
      cases p with
      | zero => cases hopen
      | succ p =>
        rw [List.getElem?_cons_succ, getElem?_append_map_some, hspelled.open_iff hknown] at hopen
        obtain ⟨before, after, hrow, hp⟩ := hopen
        refine ⟨_, List.mem_cons_self, 1 + p, ⟨d, before, after, hknown, ?_, hrow, ?_⟩, ?_⟩
        · exact descriptor?_mnemonic_ne_invalid hknown
        · rw [hp]
        · show addr + (p + 1) = addr + (1 + p)
          omega
    · intro hpad
      obtain ⟨i, hi, q, ⟨d', before, after, hd, -, hrow, rfl⟩, hp⟩ := hpad
      rcases List.mem_cons.mp hi with rfl | hmark
      · obtain rfl := Option.some.inj (hknown.symm.trans hd)
        have hp' : p = rowWidth before (fieldSlots d.layout.row body.operands) + 1 := by
          have hplace :
              addr + p = addr + (1 + rowWidth before (fieldSlots d.layout.row body.operands)) :=
            hp
          omega
        rw [hp', List.getElem?_cons_succ, getElem?_append_map_some, hspelled.open_iff hknown]
        exact ⟨before, after, hrow, rfl⟩
      · cases missing with
        | false => exact absurd hmark (by simp)
        | true =>
          rw [List.mem_singleton.mp hmark] at hd
          cases hd

/-- The stencils of a script are open where the padding of an instruction lies. -/
theorem decodeFrom_open_iff (version : Version) (addr : Nat) (bytes : List UInt8) (p : Nat) :
    ((decodeFrom version false addr bytes).flatMap (Instruction.stencil version))[p]? = some none ↔
      ∃ i ∈ decodeFrom version false addr bytes, ∃ q, i.IsPadding version q ∧
        addr + p = i.addr + q := by
  induction addr, bytes using script_induction version generalizing p with
  | done addr =>
    rw [decodeFrom]
    refine iff_of_false (fun h => (by cases h)) fun h => ?_
    obtain ⟨i, hi, q, ⟨d, before, after, hd, -⟩, -⟩ := h
    rw [List.mem_singleton.mp hi] at hd
    cases hd
  | step addr op spent left found hspans ih =>
    have hlen : (found.flatMap (Instruction.stencil version)).length = 1 + spent.length := by
      rw [List.Forall₂.length_eq hspans.covers, List.length_cons, Nat.add_comm]
    have hlater := (decodeFrom_placed version false (addr + (1 + spent.length)) left).1.le_addr
    rw [hspans.decodeFrom_eq, List.flatMap_append, List.getElem?_append, hlen]
    simp only [List.mem_append, or_and_right, exists_or]
    split
    -- `p` lies within the step, and every later instruction is placed behind it
    · next hlt =>
      rw [hspans.open_iff]
      refine (or_iff_left fun hpad => ?_).symm
      obtain ⟨i, hi, q, -, hp⟩ := hpad
      have hle := hlater i hi
      omega
    · next hge =>
      rw [ih, ← hspans.open_iff, or_iff_right fun hopen => ?_]
      · refine exists_congr fun i => and_congr_right fun _ => exists_congr
          fun q => and_congr_right fun _ => ?_
        omega
      · have hin := (List.getElem?_eq_some_iff.mp hopen).1
        omega

/-- The byte `p` of a script is padding of one of its instructions. -/
def IsPadding (version : Version) (script : List UInt8) (p : Nat) : Prop :=
  ∃ i ∈ decode version false script, ∃ q, i.IsPadding version q ∧ p = i.addr + q

/-- Two scripts are decoded to the same instructions exactly if they differ in nothing but
padding. -/
theorem decode_eq_iff (version : Version) (script script' : List UInt8) :
    decode version false script = decode version false script' ↔
      script.length = script'.length ∧
        ∀ p : Nat, ¬IsPadding version script p → script[p]? = script'[p]? := by
  have hopen (p : Nat) : IsPadding version script p ↔
      ((decode version false script).flatMap (Instruction.stencil version))[p]? = some none := by
    have h := decodeFrom_open_iff version 0 script p
    rw [Nat.zero_add] at h
    exact h.symm
  simp only [hopen]
  refine Iff.trans ?_ (covers_iff_agree (decodeFrom_covers version 0 script))
  constructor
  · intro h
    rw [h]
    exact decodeFrom_covers version 0 script'
  · intro h
    exact (decodeFrom_eq_of_covers h).2.symm

/-- The padding of a line is lost. -/
example :
    decode .standard false [0x41, 1, 0, 0, 0x61, 0]
      = decode .standard false [0x41, 1, 0, 7, 0x61, 0] := by
  decide +kernel

end Rio.Bytecode
