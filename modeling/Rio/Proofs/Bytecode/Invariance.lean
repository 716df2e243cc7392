import Rio.Proofs.Bytecode.Accounting

/-!
# What decoding does not depend on

A script can be decoded from any of its instructions, and with or without names. Neither makes a
difference that cannot be told from the instructions themselves:

> `decode_suffix`: what comes from an instruction on is what the bytes from its address on decode
> to, further on;
> `decode_naming`: decoding with names gives the same instructions, each with its selector or code
> resolved.

`Instruction.resolve` looks at the mnemonic and the operands alone. That it does the same as the
decoder, which goes by the families of its table, is a fact about the tables:
`descriptor?_family`.
-/

namespace Rio

/-- An instruction with its selector, or the code of its transition, given a name. A selector
goes, and the instruction becomes the member of the family that it selects; what names nothing
stays. -/
def Instruction.resolve (i : Instruction) : Instruction :=
  match i.mnemonic, i.operands with
  | .jmp, .int (.ofNat n) :: others =>
    if h : n < 7 then { i with mnemonic := Bytecode.branchMembers.get ⟨n, h⟩, operands := others }
    else i
  | .set, .int (.ofNat n) :: others =>
    if h : n < 7 then { i with mnemonic := Bytecode.assignMembers.get ⟨n, h⟩, operands := others }
    else i
  | .transition, .int (.ofNat n) :: others | .transitionIo, .int (.ofNat n) :: others =>
    if h : n < 46 then { i with operands := .transition (Transition.all.get ⟨n, h⟩) :: others }
    else i
  | _, _ => i

namespace Bytecode

/-! ## From any instruction on -/

/-- A script decodes from each of its instructions on as the bytes from there on do by
themselves. -/
theorem decode_suffix (version : Version) (naming : Bool) (script : List UInt8) (i : Instruction)
    (after : List Instruction) (hsuffix : i :: after <:+ decode version naming script)
    (hmark : i.mnemonic ≠ .notTerminated) :
    i :: after = (decode version naming (script.drop i.addr)).map (Instruction.shift i.addr) := by
  obtain ⟨k, hk, heq⟩ := decodeFrom_suffix version naming 0 script i after hsuffix hmark
  rw [Nat.zero_add] at hk
  unfold decode
  rw [← decodeFrom_shift, Nat.zero_add, heq, hk]

/-- A sleep without its terminator, an unknown operation and a jump that is cut off: what comes
behind the marker stands at `3` where the bytes by themselves have it at `0`. -/
theorem decode_suffix_sleep :
    [⟨3, 3, some 0x20, .invalid, [.int 5]⟩, ⟨6, 2, some 0x06, .invalid, [.int 1]⟩,
      .marker 8 .endOfStream]
      = (decode .standard true [0x20, 5, 0, 0x06, 1]).map (Instruction.shift 3) :=
  decode_suffix .standard true [0x82, 100, 0, 0x20, 5, 0, 0x06, 1] _ _
    (by decide +kernel) (by decide)

/-! ## With names -/

/-- The families of a table are told by the mnemonics. -/
theorem descriptor?_family {version : Version} {op : UInt8} {d : Descriptor}
    (h : version.descriptor? op = some d) :
    (d.mnemonic = .jmp ↔ d.layout ≠ .bare ∧ d.family = some .branch) ∧
      (d.mnemonic = .set ↔ d.layout ≠ .bare ∧ d.family = some .assign) ∧
      (d.mnemonic = .transition ∨ d.mnemonic = .transitionIo ↔
        d.layout ≠ .bare ∧ d.family = some .transition) := by
  have hall : ∀ e ∈ version.overlay ++ baseEntries,
      (e.2.mnemonic = .jmp ↔ e.2.layout ≠ .bare ∧ e.2.family = some .branch) ∧
        (e.2.mnemonic = .set ↔ e.2.layout ≠ .bare ∧ e.2.family = some .assign) ∧
        (e.2.mnemonic = .transition ∨ e.2.mnemonic = .transitionIo ↔
          e.2.layout ≠ .bare ∧ e.2.family = some .transition) := by
    cases version <;> decide
  exact hall _ (mem_of_descriptor? h)

theorem entryAt?_of_lt {α : Type} {entries : List α} {n : Nat} (h : n < entries.length) :
    entryAt? entries (.ofNat n) = some (entries.get ⟨n, h⟩) := by
  have hpos : (0 : Int) ≤ .ofNat n := Int.natCast_nonneg n
  unfold entryAt?
  rw [if_pos hpos]
  exact List.getElem?_eq_getElem h

theorem entryAt?_of_le {α : Type} {entries : List α} {n : Nat} (h : entries.length ≤ n) :
    entryAt? entries (.ofNat n) = none := by
  have hpos : (0 : Int) ≤ .ofNat n := Int.natCast_nonneg n
  unfold entryAt?
  rw [if_pos hpos]
  exact List.getElem?_eq_none h

theorem entryAt?_negSucc {α : Type} (entries : List α) (n : Nat) :
    entryAt? entries (.negSucc n) = none := by
  unfold entryAt?
  exact if_neg (by omega)

theorem Layout.exists_fields {layout : Layout} (h : layout ≠ .bare) :
    ∃ row, layout = .fields row := by
  cases layout with
  | bare => exact absurd rfl h
  | fields row => exact ⟨row, rfl⟩

/-- Resolving what was decoded without a name is naming it while it is decoded. -/
theorem resolve_eq_nameOperands {version : Version} {op : UInt8} {d : Descriptor}
    (h : version.descriptor? op = some d) (addr len : Nat) (operands : List Operand) :
    Instruction.resolve ⟨addr, len, some op, d.mnemonic, operands⟩
      = ⟨addr, len, some op, (nameOperands d operands).1, (nameOperands d operands).2⟩ := by
  obtain ⟨hbranch, hassign, htransition⟩ := descriptor?_family h
  unfold nameOperands
  split
  · next row selector others hlayout hfamily =>
    rw [hbranch.mpr ⟨by simp [hlayout], hfamily⟩]
    cases selector with
    | ofNat n =>
      by_cases hn : n < 7
      · have hentry : entryAt? branchMembers (.ofNat n) = some (branchMembers.get ⟨n, hn⟩) :=
          entryAt?_of_lt hn
        simp only [Instruction.resolve, hentry, dif_pos hn]
      · have hentry : entryAt? branchMembers (.ofNat n) = none :=
          entryAt?_of_le (Nat.le_of_not_lt hn)
        simp only [Instruction.resolve, hentry, dif_neg hn]
    | negSucc n =>
      rw [entryAt?_negSucc]
      rfl
  · next row selector others hlayout hfamily =>
    rw [hassign.mpr ⟨by simp [hlayout], hfamily⟩]
    cases selector with
    | ofNat n =>
      by_cases hn : n < 7
      · have hentry : entryAt? assignMembers (.ofNat n) = some (assignMembers.get ⟨n, hn⟩) :=
          entryAt?_of_lt hn
        simp only [Instruction.resolve, hentry, dif_pos hn]
      · have hentry : entryAt? assignMembers (.ofNat n) = none :=
          entryAt?_of_le (Nat.le_of_not_lt hn)
        simp only [Instruction.resolve, hentry, dif_neg hn]
    | negSucc n =>
      rw [entryAt?_negSucc]
      rfl
  · next row code others hlayout hfamily =>
    have hm := htransition.mpr ⟨by simp [hlayout], hfamily⟩
    cases code with
    | ofNat n =>
      by_cases hn : n < 46
      · have hentry : entryAt? Transition.all (.ofNat n) = some (Transition.all.get ⟨n, hn⟩) :=
          entryAt?_of_lt hn
        rcases hm with hm | hm <;> simp only [Instruction.resolve, hm, hentry, dif_pos hn]
      · have hentry : entryAt? Transition.all (.ofNat n) = none :=
          entryAt?_of_le (Nat.le_of_not_lt hn)
        rcases hm with hm | hm <;> simp only [Instruction.resolve, hm, hentry, dif_neg hn]
    | negSucc n =>
      rw [entryAt?_negSucc]
      rcases hm with hm | hm <;> simp only [Instruction.resolve, hm]
  · next hbranch' hassign' htransition' =>
    -- an operation of no family has another mnemonic
    unfold Instruction.resolve
    dsimp only
    split
    · next hm =>
      obtain ⟨hlayout, hfamily⟩ := hbranch.mp hm
      obtain ⟨row, hlayout⟩ := Layout.exists_fields hlayout
      exact absurd rfl (hbranch' _ _ _ hlayout hfamily)
    · next hm =>
      obtain ⟨hlayout, hfamily⟩ := hassign.mp hm
      obtain ⟨row, hlayout⟩ := Layout.exists_fields hlayout
      exact absurd rfl (hassign' _ _ _ hlayout hfamily)
    · next hm =>
      obtain ⟨hlayout, hfamily⟩ := htransition.mp (Or.inl hm)
      obtain ⟨row, hlayout⟩ := Layout.exists_fields hlayout
      exact absurd rfl (htransition' _ _ _ hlayout hfamily)
    · next hm =>
      obtain ⟨hlayout, hfamily⟩ := htransition.mp (Or.inr hm)
      obtain ⟨row, hlayout⟩ := Layout.exists_fields hlayout
      exact absurd rfl (htransition' _ _ _ hlayout hfamily)
    · rfl

/-- Reading an instruction with names takes the same bytes and gives the same, resolved. -/
theorem readInstruction_naming (version : Version) (addr : Nat) (op : UInt8) (bytes : List UInt8) :
    readInstruction version true addr op bytes
      = ((readInstruction version false addr op bytes).1.map Instruction.resolve,
          (readInstruction version false addr op bytes).2) := by
  unfold readInstruction
  cases hd : version.descriptor? op with
  | none => rfl
  | some d =>
    dsimp only
    cases readOperands d bytes with
    | none => rfl
    | some read =>
      obtain ⟨operands, rest⟩ := read
      dsimp only
      rw [if_pos rfl, if_neg Bool.false_ne_true]
      generalize (takeTerminator d rest).2 = left
      have hresolve := resolve_eq_nameOperands hd addr (1 + bytes.length - left.length) operands
      cases (takeTerminator d rest).1 with
      | false => exact congrArg (fun i => ([i], left)) hresolve.symm
      | true =>
        -- a marker stands where the instruction ends, and that is the same with its name
        exact congrArg (fun i =>
          ([i, .marker (addr + (1 + bytes.length - left.length)) .notTerminated],
          left)) hresolve.symm

theorem decodeFrom_naming (version : Version) (addr : Nat) (bytes : List UInt8) :
    decodeFrom version true addr bytes
      = (decodeFrom version false addr bytes).map Instruction.resolve := by
  fun_induction decodeFrom version false addr bytes with
  | case1 addr =>
    rw [decodeFrom]
    rfl
  | case2 addr op bytes read _ ih =>
    rw [decodeFrom, readInstruction_naming, List.map_append, ← ih]

/-- Decoding with names gives the same instructions as decoding without, each with its name
resolved. -/
theorem decode_naming (version : Version) (script : List UInt8) :
    decode version true script = (decode version false script).map Instruction.resolve :=
  decodeFrom_naming version 0 script

end Bytecode

end Rio
