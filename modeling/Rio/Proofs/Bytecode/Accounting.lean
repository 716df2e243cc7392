import Rio.Proofs.Bytecode.Grammar

/-!
# Every byte is accounted for

How many bytes an instruction takes, and which ones. An instruction whose operation is known takes
its operation byte, the bytes that its operands lie in and, if one is expected and there, its
terminator. All else is an invalid instruction that shows the bytes it takes: those up to the next
zero byte if its operation is unknown, and all that are left if its operands do not end before the
script does.

> `decode_accounting`: the instructions of a script lie end to end from its first byte to its last,
> and each of them is `Parsed` from the bytes at its address.

`Parsed` does not mention the decoder: what operands lie in a piece of the script is said by the
grammar `Body.Spans`, and `Body.width` counts them field by field.
-/

namespace Rio.Bytecode

/-! ## Widths -/

/-- The number of bytes of a field, with the zero after a string. -/
def Slot.width (field : Field) : Slot → Nat
  | number _ => field.width?.getD 0
  | text s => s.length + 1
  | padding _ => 1

theorem Slot.length_bytes (field : Field) (slot : Slot) :
    (slot.bytes field).length = slot.width field := by
  cases slot with
  | number n => exact length_toLittleEndian _ _
  | text s => rw [bytes, List.length_append]; rfl
  | padding b => rfl

/-- The number of bytes of a row of fields. -/
def rowWidth : List Field → List Slot → Nat
  | field :: row, slot :: slots => slot.width field + rowWidth row slots
  | _, _ => 0

end Rio.Bytecode

/-- The number of bytes of an option: its number, its wording, three more numbers and its goal. -/
def Rio.MenuOption.width (o : MenuOption) : Nat :=
  2 + (o.text.length + 1) + 1 + 2 + 1 + (o.target.length + 1)

namespace Rio.Bytecode

theorem rowWidth_slots (o : MenuOption) : rowWidth optionRow o.slots = o.width := by
  simp only [optionRow, MenuOption.slots, rowWidth, Slot.width, Field.width?, Option.getD_some,
    MenuOption.width]
  omega

/-- The number of bytes of the options of a menu. -/
def menuWidth : List MenuOption → Nat
  | [] => 0
  | o :: choices => o.width + menuWidth choices

/-- The number of bytes of the operands of an operation. -/
def Body.width (d : Descriptor) : Body → Nat
  | row slots => rowWidth d.layout.row slots
  | menu choices => 2 + menuWidth choices

/-! ## Counting what is spelled -/

theorem Slot.Spans.ne_nil {field : Field} {slot : Slot} {piece rest : List UInt8}
    (h : slot.Spans field piece rest) : piece ≠ [] := by
  obtain ⟨hfits, rfl | ⟨-, hne, -⟩⟩ := h
  · have hwidth : 0 < slot.width field := by
      cases slot with
      | number n =>
        cases field with
        | u8 | i8 | u16 | i16 | i32 => simp [width, Field.width?]
        | pad | cstr => exact absurd hfits (by simp [Fits, Field.Holds])
      | text s | padding b => simp [width]
    intro hnil
    rw [← Slot.length_bytes, hnil] at hwidth
    exact absurd hwidth (by simp)
  · exact hne

/-- Only an empty row takes no bytes. -/
theorem RowSpans.eq_nil {row : List Field} {slots : List Slot} {piece rest : List UInt8}
    (h : RowSpans rest row slots piece) (hnil : piece = []) : row = [] ∧ slots = [] := by
  cases h with
  | nil => exact ⟨rfl, rfl⟩
  | cons hslot _ => exact absurd (List.append_eq_nil_iff.mp hnil).1 hslot.ne_nil

/-- A row takes as many bytes as its fields have, or one less if its last string has no zero at
the end of the script. -/
theorem RowSpans.length {row : List Field} {slots : List Slot} {piece rest : List UInt8}
    (h : RowSpans rest row slots piece) :
    piece.length = rowWidth row slots ∨ rest = [] ∧ piece.length + 1 = rowWidth row slots := by
  induction h with
  | nil => exact Or.inl rfl
  | @cons field row slot slots piece pieces hslot hrow ih =>
    rw [rowWidth, List.length_append]
    obtain ⟨-, rfl | ⟨rfl, -, hend⟩⟩ := hslot
    · rw [Slot.length_bytes]
      rcases ih with ih | ⟨hrest, ih⟩
      · exact Or.inl (by omega)
      · exact Or.inr ⟨hrest, by omega⟩
    · -- nothing comes after a string without a zero, so the row ends with it
      obtain ⟨rfl, rfl⟩ := List.append_eq_nil_iff.mp hend
      obtain ⟨rfl, rfl⟩ := hrow.eq_nil rfl
      exact Or.inr ⟨rfl, rfl⟩

theorem MenuSpans.length {choices : List MenuOption} {piece rest : List UInt8}
    (h : MenuSpans rest choices piece) :
    piece.length = menuWidth choices ∨ rest = [] ∧ piece.length + 1 = menuWidth choices := by
  induction h with
  | nil => exact Or.inl rfl
  | @cons o choices piece pieces hrow hmenu ih =>
    rw [menuWidth, List.length_append, ← rowWidth_slots]
    rcases hrow.length with hlen | ⟨hend, hlen⟩
    · rw [hlen]
      rcases ih with ih | ⟨hrest, ih⟩
      · exact Or.inl (by omega)
      · exact Or.inr ⟨hrest, by omega⟩
    · obtain ⟨rfl, rfl⟩ := List.append_eq_nil_iff.mp hend
      have hchoices : choices = [] := by
        generalize hp : ([] : List UInt8) = pieces at hmenu
        cases hmenu with
        | nil => rfl
        | cons hrow' _ =>
          have := hrow'.eq_nil (List.append_eq_nil_iff.mp hp.symm).1
          exact absurd this.1 (by decide)
      subst hchoices
      exact Or.inr ⟨rfl, by rw [menuWidth, List.length_nil]; omega⟩

/-- Operands take as many bytes as they have, or one less if they end in a string that has no zero
at the end of the script. -/
theorem Body.Spans.length {d : Descriptor} {body : Body} {piece rest : List UInt8}
    (h : body.Spans d piece rest) :
    piece.length = body.width d ∨ rest = [] ∧ piece.length + 1 = body.width d := by
  cases body with
  | row slots => exact h.2.length
  | menu choices =>
    obtain ⟨-, -, -, records, hmenu, rfl⟩ := h
    rw [List.length_append, length_toLittleEndian, width]
    rcases hmenu.length with hlen | ⟨hrest, hlen⟩
    · exact Or.inl (by omega)
    · exact Or.inr ⟨hrest, by omega⟩

/-! ## Instructions -/

/-- Whether a marker for a missing terminator comes first. -/
def Marked (after : List Instruction) : Prop :=
  after.head?.map (·.mnemonic) = some .notTerminated

/-- Bytes that are shown as numbers. -/
def numbers (bytes : List UInt8) : List Operand :=
  bytes.map fun b => .int b.toNat

/-- What the instruction is whose operation byte `op` stands in front of `tail`, with the
instructions `after` behind it. -/
inductive Parsed (version : Version) (naming : Bool) (op : UInt8) (tail : List UInt8)
    (i : Instruction) (after : List Instruction) : Prop where
  /-- An unknown operation shows the bytes up to the next zero, which it takes too, or to the
  end. -/
  | skipped (junk : List UInt8)
      (unknown : version.descriptor? op = none)
      (nonzero : 0 ∉ junk)
      (extent : (∃ rest, tail = junk ++ 0 :: rest) ∧ i.len = 1 + junk.length + 1 ∨
        tail = junk ∧ i.len = 1 + junk.length)
      (shown : i.mnemonic = .invalid ∧ i.operands = numbers junk)
      (unmarked : ¬Marked after)
  /-- An operation whose operands do not end before the script does shows all the bytes there
  are. -/
  | truncated (d : Descriptor)
      (known : version.descriptor? op = some d)
      (unspelled : ∀ body piece rest, tail = piece ++ rest → ¬Body.Spans d piece rest body)
      (extent : i.len = 1 + tail.length)
      (shown : i.mnemonic = .invalid ∧ i.operands = numbers tail)
      (last : after = [.marker i.next .endOfStream])
  /-- Any other one takes what its operands lie in and its terminator, if that is expected and
  there. -/
  | regular (d : Descriptor) (body : Body) (piece rest : List UInt8)
      (known : version.descriptor? op = some d)
      (split : tail = piece ++ rest)
      (spelled : Body.Spans d piece rest body)
      (counted : piece.length = body.width d ∨ rest = [] ∧ piece.length + 1 = body.width d)
      (extent : i.len = 1 + piece.length +
        if d.expectsTerminator = true ∧ rest.head? = some 0 then 1 else 0)
      (shown : (i.mnemonic, i.operands)
        = if naming then nameOperands d body.operands else (d.mnemonic, body.operands))
      (marked : Marked after ↔ d.expectsTerminator = true ∧ ∃ b, rest.head? = some b ∧ b ≠ 0)

/-- Taking a terminator: which byte is taken, and when one is missing. -/
theorem takeTerminator_cases (d : Descriptor) (rest : List UInt8) :
    rest.length = (takeTerminator d rest).2.length +
        (if d.expectsTerminator = true ∧ rest.head? = some 0 then 1 else 0) ∧
      (takeTerminator d rest).2 <:+ rest ∧
      ((takeTerminator d rest).1 = true ↔
        d.expectsTerminator = true ∧ ∃ b, rest.head? = some b ∧ b ≠ 0) := by
  unfold takeTerminator
  cases d.expectsTerminator with
  | false => exact ⟨by simp, List.suffix_rfl, by simp⟩
  | true =>
    cases rest with
    | nil => exact ⟨by simp, List.suffix_rfl, by simp⟩
    | cons b rest =>
      by_cases hb : b = 0
      · subst hb
        exact ⟨by simp, List.suffix_cons _ _, by simp⟩
      · have hne : ¬(b == 0) = true := by simpa using hb
        dsimp only
        rw [if_neg hne]
        exact ⟨by simp [hb], List.suffix_rfl, by simp [hb]⟩

/-- What an instruction leaves is a final piece of the bytes. -/
theorem readInstruction_suffix (version : Version) (naming : Bool) (addr : Nat) (op : UInt8)
    (tail : List UInt8) : (readInstruction version naming addr op tail).2 <:+ tail := by
  unfold readInstruction
  split
  · exact (List.drop_suffix _ _).trans (List.dropWhile_suffix _)
  · next d _ =>
    split
    · exact List.nil_suffix
    · next operands rest hread =>
      obtain ⟨body, piece, -, -, hsplit⟩ := readOperands_eq_some_iff.mp hread
      exact (takeTerminator_cases d rest).2.1.trans ⟨piece, hsplit.symm⟩

/-- What is read from the bytes after an operation byte is parsed from them, whatever comes
later. -/
theorem readInstruction_parsed (version : Version) (naming : Bool) (addr : Nat) (op : UInt8)
    (tail : List UInt8) (later : Nat → List Instruction)
    (hlater : ∀ next, ¬Marked (later next))
    (hlast : (readInstruction version naming addr op tail).2 = [] →
      ∀ next, later next = [.marker next .endOfStream]) :
    ∃ i marks, (readInstruction version naming addr op tail).1 = i :: marks ∧
      i.addr = addr ∧ i.opcode = some op ∧
      Parsed version naming op tail i (marks ++ later i.next) := by
  unfold readInstruction at hlast ⊢
  split
  · next hunknown =>
    obtain ⟨hzero, hsplit⟩ := split_at_zero tail
    refine ⟨_, [], rfl, rfl, rfl, .skipped _ hunknown hzero ?_ ⟨rfl, rfl⟩ (hlater _)⟩
    -- the bytes up to the zero byte and those from it on make up the whole
    have hlen := congrArg List.length
      (List.takeWhile_append_dropWhile (p := (· != 0)) (l := tail))
    rw [List.length_append] at hlen
    rcases hsplit with hclosed | ⟨hwhole, hrest⟩
    · have hlen' := congrArg List.length hclosed
      rw [List.length_append, List.length_cons] at hlen'
      exact Or.inl ⟨⟨_, hclosed⟩, by simp only [invalid]; omega⟩
    · refine Or.inr ⟨hwhole, ?_⟩
      simp only [invalid, hrest, List.length_nil]
      rw [← hwhole]
      rfl
  · next d hknown =>
    split
    · next hread =>
      rw [hknown] at hlast
      simp only [hread] at hlast
      refine ⟨_, [], rfl, rfl, rfl,
        .truncated d hknown ?_ rfl ⟨rfl, rfl⟩ (hlast trivial _)⟩
      -- any operands that were there would have been read
      intro body piece rest hsplit hspans
      rw [readOperands_eq_some_iff.mpr ⟨body, piece, hspans, rfl, hsplit⟩] at hread
      exact absurd hread (by simp)
    · next operands rest hread =>
      obtain ⟨body, piece, hspans, rfl, hsplit⟩ := readOperands_eq_some_iff.mp hread
      obtain ⟨hlen, -, hmissing⟩ := takeTerminator_cases d rest
      have htail : tail.length = piece.length + rest.length := by rw [hsplit, List.length_append]
      dsimp only
      -- the instruction is kept abstract, so that its length and its operands can be told apart
      generalize hn : (if naming then nameOperands d body.operands
        else (d.mnemonic, body.operands)) = named
      generalize hi : (⟨addr, 1 + tail.length - (takeTerminator d rest).2.length, some op, named.1,
        named.2⟩ : Instruction) = i
      have hextent : i.len = 1 + piece.length +
          if d.expectsTerminator = true ∧ rest.head? = some 0 then 1 else 0 := by
        rw [← hi]
        dsimp only
        omega
      have hshown : (i.mnemonic, i.operands) = named := by rw [← hi]
      refine ⟨i, if (takeTerminator d rest).1 then [.marker i.next .notTerminated] else [], ?_,
        by rw [← hi], by rw [← hi], ?_⟩
      · cases (takeTerminator d rest).1 <;> rfl
      · refine .regular d body piece rest hknown hsplit hspans hspans.length hextent
          (hshown.trans hn.symm) ?_
        rw [← hmissing]
        cases (takeTerminator d rest).1 with
        | false => simpa using hlater _
        | true => exact ⟨fun _ => rfl, fun _ => rfl⟩

/-! ## Scripts -/

/-- No script starts with a missing terminator. -/
theorem not_marked_decodeFrom (version : Version) (naming : Bool) (addr : Nat)
    (bytes : List UInt8) : ¬Marked (decodeFrom version naming addr bytes) := by
  cases bytes with
  | nil =>
    rw [decodeFrom]
    simp [Marked, Instruction.marker]
  | cons op bytes =>
    obtain ⟨i, rest, hproper, heq⟩ := (decodeFrom_placed version naming addr (op :: bytes)).2
      (by simp)
    rw [heq]
    simpa [Marked] using hproper.1

/-- From every instruction on, and from the end, a script is decoded as the bytes from there on
are. -/
theorem decodeFrom_suffix (version : Version) (naming : Bool) (addr : Nat) (bytes : List UInt8) :
    ∀ i after, i :: after <:+ decodeFrom version naming addr bytes → i.mnemonic ≠ .notTerminated →
      ∃ k, i.addr = addr + k ∧ i :: after = decodeFrom version naming i.addr (bytes.drop k) := by
  fun_induction decodeFrom version naming addr bytes with
  | case1 addr =>
    intro i after hsuffix _
    rcases List.suffix_cons_iff.mp hsuffix with heq | hnil
    · obtain ⟨rfl, rfl⟩ := List.cons.inj heq
      exact ⟨0, rfl, by rw [List.drop_zero, decodeFrom]; rfl⟩
    · exact absurd (List.suffix_nil.mp hnil) (by simp)
  | case2 addr op bytes read hle ih =>
    obtain ⟨first, -, haddr, -, -, hread⟩ := readInstruction_cases version naming addr op bytes
    have hmarks : ∃ marks, read.1 = first :: marks ∧
        (marks = [] ∨ marks = [.marker first.next .notTerminated]) := by
      rcases hread with hone | ⟨htwo, -⟩
      · exact ⟨_, hone, Or.inl rfl⟩
      · exact ⟨_, htwo, Or.inr rfl⟩
    obtain ⟨marks, hread, hmarks⟩ := hmarks
    intro i after hsuffix hmark
    rw [hread, List.cons_append] at hsuffix
    rcases List.suffix_cons_iff.mp hsuffix with heq | hrest
    · refine ⟨0, ?_, ?_⟩
      · rw [(List.cons.inj heq).1, haddr, Nat.add_zero]
      · rw [heq, ← List.cons_append, ← hread, (List.cons.inj heq).1, haddr,
          List.drop_zero, decodeFrom]
    · -- a marker is no instruction of its own
      have hlater : i :: after <:+ decodeFrom version naming
          (addr + (1 + bytes.length - read.2.length)) read.2 := by
        rcases hmarks with rfl | rfl
        · exact hrest
        · rcases List.suffix_cons_iff.mp hrest with heq | hlater
          · rw [(List.cons.inj heq).1] at hmark
            exact absurd rfl hmark
          · exact hlater
      obtain ⟨k, hk, heq⟩ := ih i after hlater hmark
      have hleft : read.2 <:+ op :: bytes :=
        (readInstruction_suffix version naming addr op bytes).trans (List.suffix_cons _ _)
      have hdrop := List.suffix_iff_eq_drop.mp hleft
      rw [List.length_cons, Nat.add_comm] at hdrop
      refine ⟨1 + bytes.length - read.2.length + k, by omega, ?_⟩
      rw [← List.drop_drop, ← hdrop]
      exact heq

/-- Every instruction of a script is parsed from the bytes at its address. -/
theorem decodeFrom_parsed (version : Version) (naming : Bool) (addr : Nat) (bytes : List UInt8) :
    ∀ i after, i :: after <:+ decodeFrom version naming addr bytes → i.IsProper →
      ∃ k op tail, i.addr = addr + k ∧ bytes.drop k = op :: tail ∧ i.opcode = some op ∧
        Parsed version naming op tail i after := by
  intro i after hsuffix hproper
  obtain ⟨k, hk, heq⟩ := decodeFrom_suffix version naming addr bytes i after hsuffix hproper.1
  cases hbytes : bytes.drop k with
  | nil =>
    rw [hbytes, decodeFrom] at heq
    rw [(List.cons.inj heq).1] at hproper
    exact absurd rfl hproper.2
  | cons op tail =>
    rw [hbytes, decodeFrom] at heq
    obtain ⟨first, marks, hread, -, hop, hparsed⟩ :=
      readInstruction_parsed version naming i.addr op tail
        (fun next => decodeFrom version naming next
          (readInstruction version naming i.addr op tail).2)
        (fun next => not_marked_decodeFrom version naming next _)
        (fun hnil next => by rw [hnil, decodeFrom])
    obtain ⟨j, -, haddr, -, hlen, hj⟩ := readInstruction_cases version naming i.addr op tail
    -- both lemmas speak of the first instruction read
    have hfirst : first = j := by
      rw [hread] at hj
      rcases hj with hj | ⟨hj, -⟩ <;> exact (List.cons.inj hj).1
    have hnext :
        i.addr + (1 + tail.length - (readInstruction version naming i.addr op tail).2.length)
          = first.next := by
      rw [Instruction.next, hfirst, haddr, hlen]
    rw [hread, hnext, List.cons_append] at heq
    obtain ⟨hi, rfl⟩ := List.cons.inj heq
    exact ⟨k, op, tail, hk, hbytes, hi ▸ hop, hi ▸ hparsed⟩

theorem Placed.isChain {stop addr : Nat} {l : List Instruction} (h : Placed stop addr l) :
    l.IsChain fun i j => j.addr = i.next := by
  induction h with
  | last => exact .singleton _
  | @proper i rest _ _ hrest ih =>
    cases rest with
    | nil => exact .singleton _
    | cons j rest => exact .cons_cons hrest.addr_eq ih
  | unterminated _ _ ih => exact .cons_cons rfl ih

/-- The last instruction, and no other, marks the end. -/
theorem Placed.exists_body {stop addr : Nat} {l : List Instruction} (h : Placed stop addr l) :
    ∃ body, l = body ++ [.marker stop .endOfStream] ∧ ∀ i ∈ body, i.mnemonic ≠ .endOfStream := by
  induction h with
  | last => exact ⟨[], rfl, by simp⟩
  | @proper i rest hproper _ _ ih =>
    obtain ⟨body, rfl, hbody⟩ := ih
    refine ⟨i :: body, rfl, fun j hj => ?_⟩
    rcases List.mem_cons.mp hj with rfl | hj
    · exact hproper.2
    · exact hbody j hj
  | @unterminated i rest _ _ ih =>
    obtain ⟨body, heq, hbody⟩ := ih
    refine ⟨.marker i.addr .notTerminated :: body, by rw [heq]; rfl, fun j hj => ?_⟩
    rcases List.mem_cons.mp hj with rfl | hj
    · exact Mnemonic.noConfusion
    · exact hbody j hj

/-- Markers take no bytes and stand for none. -/
theorem Placed.marker {stop addr : Nat} {l : List Instruction} (h : Placed stop addr l) :
    ∀ i ∈ l, ¬i.IsProper → i.len = 0 ∧ i.opcode = none := by
  induction h with
  | last =>
    intro i hi _
    rw [List.mem_singleton.mp hi]
    exact ⟨rfl, rfl⟩
  | proper hproper _ _ ih =>
    intro i hi hmarker
    rcases List.mem_cons.mp hi with rfl | hi
    · exact absurd hproper hmarker
    · exact ih i hi hmarker
  | unterminated _ _ ih =>
    intro i hi hmarker
    rcases List.mem_cons.mp hi with rfl | hi
    · exact ⟨rfl, rfl⟩
    · exact ih i hi hmarker

/-- Every byte of a script belongs to one of its instructions, and each instruction is what the
bytes at its address make it. -/
theorem decode_accounting (version : Version) (naming : Bool) (script : List UInt8) :
    (decode version naming script).head?.map (·.addr) = some 0 ∧
      (decode version naming script).IsChain (fun i j => j.addr = i.next) ∧
      (∃ body, decode version naming script = body ++ [.marker script.length .endOfStream] ∧
        ∀ i ∈ body, i.mnemonic ≠ .endOfStream) ∧
      (∀ i ∈ decode version naming script, ¬i.IsProper → i.len = 0 ∧ i.opcode = none) ∧
      ∀ i after, i :: after <:+ decode version naming script → i.IsProper →
        1 ≤ i.len ∧ ∃ op tail, script.drop i.addr = op :: tail ∧ i.opcode = some op ∧
          Parsed version naming op tail i after := by
  have hplaced := decode_placed version naming script
  refine ⟨hplaced.head_addr, hplaced.isChain, hplaced.exists_body, hplaced.marker, ?_⟩
  intro i after hsuffix hproper
  have hmem : i ∈ decode version naming script := hsuffix.subset (List.mem_cons_self ..)
  obtain ⟨k, op, tail, haddr, hdrop, hop, hparsed⟩ :=
    decodeFrom_parsed version naming 0 script i after hsuffix hproper
  rw [Nat.zero_add] at haddr
  exact ⟨hplaced.len_pos i hmem hproper, op, tail, haddr ▸ hdrop, hop, hparsed⟩

end Rio.Bytecode
