import Rio.Bytecode.Decode

/-!
# Where decoded instructions lie

Two facts about addresses that everything later rests on. `decodeFrom_shift`: decoding does not
depend on where the bytes start, only the addresses move. `decode_placed`: the instructions of a
script lie one after the other without a gap, from `0` to the length of the script,

> `Placed stop addr l`: `l` starts at `addr`, each instruction starts where the one before it ends,
> only markers take no bytes, and the last one, and no other, marks the end at `stop`.

A marker for a missing terminator is always followed by an instruction with the same address: a
terminator is missing only if some other byte stands in its place.
-/

namespace Rio

/-- An instruction that lies further on. -/
def Instruction.shift (k : Nat) (i : Instruction) : Instruction :=
  { i with addr := i.addr + k }

/-- An instruction that is no marker. -/
def Instruction.IsProper (i : Instruction) : Prop :=
  i.mnemonic ≠ .notTerminated ∧ i.mnemonic ≠ .endOfStream

/-! ## Lists cut in two

Along a script addresses grow, so a bound on them cuts the script in two. -/

section

variable {α : Type} {p : α → Bool} {l : List α}

theorem eq_false_of_pairwise_cons {x : α} (h : (x :: l).Pairwise fun x y => p y = true → p x = true)
    (hx : p x = false) : ∀ y ∈ x :: l, p y = false := by
  intro y hy
  rcases List.mem_cons.mp hy with rfl | hy
  · exact hx
  · rw [Bool.eq_false_iff]
    intro hpy
    rw [(List.pairwise_cons.mp h).1 y hy hpy] at hx
    cases hx

/-- What has a property that no element gains after one without it stands in front. -/
theorem takeWhile_eq_filter (h : l.Pairwise fun x y => p y = true → p x = true) :
    l.takeWhile p = l.filter p := by
  induction l with
  | nil => rfl
  | cons x l ih =>
    cases hx : p x with
    | true =>
      rw [List.takeWhile_cons_of_pos hx, List.filter_cons_of_pos hx, ih (List.pairwise_cons.mp h).2]
    | false =>
      have hnone := eq_false_of_pairwise_cons h hx
      rw [List.takeWhile_cons_of_neg (by simp [hx])]
      exact (List.filter_eq_nil_iff.mpr fun y hy => by simp [hnone y hy]).symm

/-- And all that is behind it is without the property. -/
theorem dropWhile_eq_filter (h : l.Pairwise fun x y => p y = true → p x = true) :
    l.dropWhile p = l.filter fun x => !p x := by
  induction l with
  | nil => rfl
  | cons x l ih =>
    cases hx : p x with
    | true =>
      rw [List.dropWhile_cons_of_pos hx, List.filter_cons_of_neg (by simp [hx]),
        ih (List.pairwise_cons.mp h).2]
    | false =>
      have hnone := eq_false_of_pairwise_cons h hx
      rw [List.dropWhile_cons_of_neg (by simp [hx])]
      exact (List.filter_eq_self.mpr fun y hy => by simp [hnone y hy]).symm

end

end Rio

namespace Rio.Bytecode

/-! ## Moving a script -/

theorem marker_shift (addr k : Nat) (m : Mnemonic) :
    Instruction.marker (addr + k) m = (Instruction.marker addr m).shift k := rfl

theorem readInstruction_shift (version : Version) (naming : Bool) (addr k : Nat) (op : UInt8)
    (bytes : List UInt8) :
    readInstruction version naming (addr + k) op bytes
      = ((readInstruction version naming addr op bytes).1.map (Instruction.shift k),
          (readInstruction version naming addr op bytes).2) := by
  unfold readInstruction
  split
  · rfl
  · split
    · rfl
    · next d _ _ operands rest _ =>
      dsimp only
      cases (takeTerminator d rest).1 with
      | false => rfl
      | true =>
        rw [if_pos rfl, if_pos rfl, List.map_cons, List.map_cons, ← marker_shift]
        simp only [Instruction.next, Instruction.shift, List.map_nil]
        rw [Nat.add_right_comm]

/-- Decoding further on gives the same instructions further on. -/
theorem decodeFrom_shift (version : Version) (naming : Bool) (k : Nat) :
    ∀ (addr : Nat) (bytes : List UInt8),
      decodeFrom version naming (addr + k) bytes
        = (decodeFrom version naming addr bytes).map (Instruction.shift k) := by
  intro addr bytes
  fun_induction decodeFrom version naming addr bytes with
  | case1 addr =>
    rw [decodeFrom]
    rfl
  | case2 addr op bytes read _ ih =>
    rw [decodeFrom, readInstruction_shift, List.map_append, ← ih]
    simp only [read]
    rw [Nat.add_right_comm]

/-! ## Instructions in a row -/

/-- Instructions that lie one after the other from an address up to `stop`. -/
inductive Placed (stop : Nat) : Nat → List Instruction → Prop where
  | last : Placed stop stop [.marker stop .endOfStream]
  | proper {i : Instruction} {rest : List Instruction} :
      i.IsProper → 0 < i.len → Placed stop i.next rest → Placed stop i.addr (i :: rest)
  /-- The marker for a missing terminator stands before an instruction. -/
  | unterminated {i : Instruction} {rest : List Instruction} :
      i.IsProper → Placed stop i.addr (i :: rest) →
      Placed stop i.addr (.marker i.addr .notTerminated :: i :: rest)

theorem Placed.addr_eq {stop addr : Nat} {i : Instruction} {rest : List Instruction}
    (h : Placed stop addr (i :: rest)) : i.addr = addr := by
  cases h <;> rfl

theorem Placed.head_addr {stop addr : Nat} {l : List Instruction} (h : Placed stop addr l) :
    l.head?.map (·.addr) = some addr := by
  cases h <;> rfl

/-! ## Addresses in a row -/

namespace Placed

variable {stop addr : Nat} {l : List Instruction}

theorem le_addr (h : Placed stop addr l) : ∀ i ∈ l, addr ≤ i.addr := by
  induction h with
  | last =>
    intro i hi
    rw [List.mem_singleton.mp hi]
    exact Nat.le_refl _
  | @proper j rest _ _ _ ih =>
    intro i hi
    rcases List.mem_cons.mp hi with rfl | hi
    · exact Nat.le_refl _
    · exact Nat.le_trans (Nat.le_add_right _ _) (ih i hi)
  | unterminated _ _ ih =>
    intro i hi
    rcases List.mem_cons.mp hi with rfl | hi
    · exact Nat.le_refl _
    · exact ih i hi

/-- What comes later starts behind what comes before. -/
theorem pairwise (h : Placed stop addr l) : l.Pairwise fun i j => i.next ≤ j.addr := by
  induction h with
  | last => exact List.pairwise_singleton ..
  | proper _ _ hrest ih => exact List.pairwise_cons.mpr ⟨hrest.le_addr, ih⟩
  | unterminated _ hrest ih => exact List.pairwise_cons.mpr ⟨hrest.le_addr, ih⟩

/-- Addresses never go back. -/
theorem sorted (h : Placed stop addr l) : l.Pairwise fun i j => i.addr ≤ j.addr :=
  h.pairwise.imp fun hle => Nat.le_trans (Nat.le_add_right _ _) hle

theorem len_pos (h : Placed stop addr l) : ∀ i ∈ l, i.IsProper → 0 < i.len := by
  induction h with
  | last =>
    intro i hi hproper
    rw [List.mem_singleton.mp hi] at hproper
    exact absurd rfl hproper.2
  | proper _ hpos _ ih =>
    intro i hi hproper
    rcases List.mem_cons.mp hi with rfl | hi
    · exact hpos
    · exact ih i hi hproper
  | unterminated _ _ ih =>
    intro i hi hproper
    rcases List.mem_cons.mp hi with rfl | hi
    · exact absurd rfl hproper.1
    · exact ih i hi hproper

/-- Where an instruction ends another one starts, or the script ends. -/
theorem next_mem (h : Placed stop addr l) : ∀ i ∈ l, ∃ j ∈ l, j.addr = i.next := by
  induction h with
  | last =>
    intro i hi
    exact ⟨i, hi, by rw [List.mem_singleton.mp hi]; rfl⟩
  | @proper j rest _ _ hrest ih =>
    intro i hi
    rcases List.mem_cons.mp hi with rfl | hi
    · cases rest with
      | nil => exact absurd hrest.head_addr (by simp)
      | cons k rest => exact ⟨k, List.mem_cons_of_mem _ (List.mem_cons_self ..), hrest.addr_eq⟩
    · obtain ⟨k, hk, heq⟩ := ih i hi
      exact ⟨k, List.mem_cons_of_mem _ hk, heq⟩
  | @unterminated j rest _ hrest ih =>
    intro i hi
    rcases List.mem_cons.mp hi with rfl | hi
    · exact ⟨j, List.mem_cons_of_mem _ (List.mem_cons_self ..), rfl⟩
    · obtain ⟨k, hk, heq⟩ := ih i hi
      exact ⟨k, List.mem_cons_of_mem _ hk, heq⟩

/-- No instruction starts in the middle of another one. -/
theorem not_inside (h : Placed stop addr l) :
    ∀ i ∈ l, ∀ j ∈ l, j.addr ≤ i.addr ∨ i.next ≤ j.addr := by
  induction h with
  | last =>
    intro i hi j hj
    rw [List.mem_singleton.mp hi, List.mem_singleton.mp hj]
    exact Or.inl (Nat.le_refl _)
  | @proper k rest _ _ hrest ih =>
    intro i hi j hj
    rcases List.mem_cons.mp hi with rfl | hi' <;> rcases List.mem_cons.mp hj with rfl | hj'
    · exact Or.inl (Nat.le_refl _)
    · exact Or.inr (hrest.le_addr j hj')
    · exact Or.inl (Nat.le_trans (Nat.le_add_right _ _) (hrest.le_addr i hi'))
    · exact ih i hi' j hj'
  | @unterminated k rest _ hrest ih =>
    intro i hi j hj
    rcases List.mem_cons.mp hi with rfl | hi' <;> rcases List.mem_cons.mp hj with rfl | hj'
    · exact Or.inl (Nat.le_refl _)
    · exact Or.inr (hrest.le_addr j hj')
    · exact Or.inl (hrest.le_addr i hi')
    · exact ih i hi' j hj'

/-- No instruction goes beyond the end. -/
theorem next_le (h : Placed stop addr l) : ∀ i ∈ l, i.next ≤ stop := by
  induction h with
  | last =>
    intro i hi
    rw [List.mem_singleton.mp hi]
    exact Nat.le_refl _
  | @proper k rest _ _ hrest ih =>
    intro i hi
    rcases List.mem_cons.mp hi with rfl | hi
    · cases rest with
      | nil => exact absurd hrest.head_addr (by simp)
      | cons j rest =>
        have hj := ih j (List.mem_cons_self ..)
        have haddr := hrest.addr_eq
        unfold Instruction.next at hj haddr ⊢
        omega
    · exact ih i hi
  | @unterminated k rest _ _ ih =>
    intro i hi
    rcases List.mem_cons.mp hi with rfl | hi
    · exact Nat.le_trans (Nat.le_add_right _ _) (ih k (List.mem_cons_self ..))
    · exact ih i hi

/-- Two instructions do not end at the same address. -/
theorem eq_of_next_eq (h : Placed stop addr l) : ∀ i ∈ l, ∀ j ∈ l, i.IsProper → j.IsProper →
    i.next = j.next → i = j := by
  induction h with
  | last =>
    intro i hi j hj _ _ _
    rw [List.mem_singleton.mp hi, List.mem_singleton.mp hj]
  | @proper k rest _ _ hrest ih =>
    -- what comes later ends later
    have hlater : ∀ i ∈ rest, i.IsProper → k.next < i.next := by
      intro i hi hproper
      have hle := hrest.le_addr i hi
      have hpos := hrest.len_pos i hi hproper
      unfold Instruction.next at hle ⊢
      omega
    intro i hi j hj hip hjp heq
    rcases List.mem_cons.mp hi with rfl | hi' <;> rcases List.mem_cons.mp hj with rfl | hj'
    · rfl
    · exact absurd heq (Nat.ne_of_lt (hlater j hj' hjp))
    · exact absurd heq (Nat.ne_of_gt (hlater i hi' hip))
    · exact ih i hi' j hj' hip hjp heq
  | unterminated _ _ ih =>
    intro i hi j hj hip hjp heq
    rcases List.mem_cons.mp hi with rfl | hi'
    · exact absurd rfl hip.1
    rcases List.mem_cons.mp hj with rfl | hj'
    · exact absurd rfl hjp.1
    exact ih i hi' j hj' hip hjp heq

/-- In front of every address but the first stands an instruction that ends there. -/
theorem exists_next_eq (h : Placed stop addr l) {x : Nat} (hx : ∃ j ∈ l, j.addr = x)
    (hlt : addr < x) :
    ∃ before i after, l = before ++ i :: after ∧ i.IsProper ∧ i.next = x ∧
      ∀ j ∈ after, x ≤ j.addr := by
  induction h with
  | last =>
    obtain ⟨j, hj, rfl⟩ := hx
    rw [List.mem_singleton.mp hj] at hlt
    exact absurd hlt (Nat.lt_irrefl _)
  | @proper k rest hproper _ hrest ih =>
    obtain ⟨j, hj, rfl⟩ := hx
    have hj' : j ∈ rest := by
      rcases List.mem_cons.mp hj with rfl | hj
      · exact absurd hlt (Nat.lt_irrefl _)
      · exact hj
    rcases Nat.eq_or_lt_of_le (hrest.le_addr j hj') with heq | hlt'
    · exact ⟨[], k, rest, rfl, hproper, heq, fun i hi => heq ▸ hrest.le_addr i hi⟩
    · obtain ⟨before, i, after, rfl, hi⟩ := ih ⟨j, hj', rfl⟩ hlt'
      exact ⟨k :: before, i, after, rfl, hi⟩
  | @unterminated k rest _ _ ih =>
    obtain ⟨j, hj, rfl⟩ := hx
    have hj' : j ∈ k :: rest := by
      rcases List.mem_cons.mp hj with rfl | hj
      · exact absurd hlt (Nat.lt_irrefl _)
      · exact hj
    obtain ⟨before, i, after, heq, hi⟩ := ih ⟨j, hj', rfl⟩ hlt
    exact ⟨_ :: before, i, after, by rw [heq]; rfl, hi⟩

end Placed

/-! ## Decoded instructions lie in a row -/

/-- An entry of the table of a version. -/
theorem mem_of_descriptor? {version : Version} {op : UInt8} {d : Descriptor}
    (h : version.descriptor? op = some d) : (op, d) ∈ version.overlay ++ baseEntries := by
  obtain ⟨before, after, heq, -⟩ := List.lookup_eq_some_iff.mp h
  rw [heq]
  exact List.mem_append_right _ (List.mem_cons_self ..)

/-- No operation is called like a marker. -/
theorem descriptor?_mnemonic {version : Version} {op : UInt8} {d : Descriptor}
    (h : version.descriptor? op = some d) :
    d.mnemonic ≠ .notTerminated ∧ d.mnemonic ≠ .endOfStream := by
  have hall : ∀ e ∈ version.overlay ++ baseEntries,
      e.2.mnemonic ≠ .notTerminated ∧ e.2.mnemonic ≠ .endOfStream := by
    cases version <;> decide
  exact hall _ (mem_of_descriptor? h)

theorem mem_of_entryAt? {α : Type} {entries : List α} {n : Int} {a : α}
    (h : entryAt? entries n = some a) : a ∈ entries := by
  unfold entryAt? at h
  split at h
  · exact List.mem_of_getElem? h
  · exact absurd h (by simp)

/-- The mnemonic of an instruction is that of its operation or of a member of its family. -/
theorem nameOperands_mnemonic (d : Descriptor) (operands : List Operand) :
    (nameOperands d operands).1 = d.mnemonic ∨
      (nameOperands d operands).1 ∈ branchMembers ++ assignMembers := by
  unfold nameOperands
  split
  · split
    · next hm => exact Or.inr (List.mem_append_left _ (mem_of_entryAt? hm))
    · exact Or.inl rfl
  · split
    · next hm => exact Or.inr (List.mem_append_right _ (mem_of_entryAt? hm))
    · exact Or.inl rfl
  · split <;> exact Or.inl rfl
  · exact Or.inl rfl

theorem nameOperands_isProper {d : Descriptor} (operands : List Operand)
    (hd : d.mnemonic ≠ .notTerminated ∧ d.mnemonic ≠ .endOfStream) :
    (nameOperands d operands).1 ≠ .notTerminated ∧ (nameOperands d operands).1 ≠ .endOfStream := by
  rcases nameOperands_mnemonic d operands with h | h
  · rw [h]
    exact hd
  · have hall : ∀ m ∈ branchMembers ++ assignMembers, m ≠ .notTerminated ∧ m ≠ .endOfStream := by
      decide
    exact hall _ h

/-- What reading one instruction gives: an instruction that takes the bytes up to the rest, and, if
bytes are left, maybe a marker after it. -/
theorem readInstruction_cases (version : Version) (naming : Bool) (addr : Nat) (op : UInt8)
    (bytes : List UInt8) :
    ∃ i : Instruction, i.IsProper ∧ i.addr = addr ∧ i.opcode = some op ∧
      i.len = 1 + bytes.length - (readInstruction version naming addr op bytes).2.length ∧
      ((readInstruction version naming addr op bytes).1 = [i] ∨
        (readInstruction version naming addr op bytes).1 = [i, .marker i.next .notTerminated] ∧
          (readInstruction version naming addr op bytes).2 ≠ []) := by
  unfold readInstruction
  split
  · exact ⟨_, ⟨by simp [invalid], by simp [invalid]⟩, rfl, rfl, rfl, Or.inl rfl⟩
  · next d hd =>
    have hm := descriptor?_mnemonic hd
    split
    · exact ⟨_, ⟨by simp [invalid], by simp [invalid]⟩, rfl, rfl, by simp [invalid], Or.inl rfl⟩
    · next operands rest _ =>
      have hproper : ∀ named : Mnemonic × List Operand,
          named = (if naming then nameOperands d operands else (d.mnemonic, operands)) →
            named.1 ≠ .notTerminated ∧ named.1 ≠ .endOfStream := by
        rintro named rfl
        cases naming with
        | false => exact hm
        | true => exact nameOperands_isProper operands hm
      dsimp only
      generalize hn : (if naming then nameOperands d operands else (d.mnemonic, operands)) = named
      refine ⟨⟨addr, 1 + bytes.length - (takeTerminator d rest).2.length, some op, named.1,
        named.2⟩, hproper named hn.symm, rfl, rfl, rfl, ?_⟩
      cases hc : (takeTerminator d rest).1 with
      | false => exact Or.inl rfl
      | true =>
        refine Or.inr ⟨rfl, ?_⟩
        -- a terminator is missed only in front of another byte
        unfold takeTerminator at hc ⊢
        split at hc
        · split at hc
          · exact absurd hc (by simp)
          · next h => simp [h]
        · exact absurd hc (by simp)

/-- The instructions from an address on lie in a row. -/
theorem decodeFrom_placed (version : Version) (naming : Bool) :
    ∀ (addr : Nat) (bytes : List UInt8),
      Placed (addr + bytes.length) addr (decodeFrom version naming addr bytes) ∧
        (bytes ≠ [] → ∃ i rest, i.IsProper ∧ decodeFrom version naming addr bytes = i :: rest) := by
  intro addr bytes
  fun_induction decodeFrom version naming addr bytes with
  | case1 addr => exact ⟨Placed.last, fun h => absurd rfl h⟩
  | case2 addr op bytes read hle ih =>
    obtain ⟨i, hproper, haddr, -, hlen, hread⟩ :=
      readInstruction_cases version naming addr op bytes
    have hstop : addr + (1 + bytes.length - read.2.length) + read.2.length
        = addr + (op :: bytes).length := by
      simp only [List.length_cons, read]
      omega
    have hnext : addr + (1 + bytes.length - read.2.length) = i.next := by
      rw [Instruction.next, haddr, hlen]
    have hpos : 0 < i.len := by
      rw [hlen]
      omega
    rw [hstop, hnext] at ih
    rw [hnext, ← haddr]
    rw [← haddr] at ih
    rcases hread with hone | ⟨htwo, hne⟩
    · rw [show read.1 = [i] from hone]
      exact ⟨Placed.proper hproper hpos ih.1, fun _ => ⟨i, _, hproper, rfl⟩⟩
    -- a marker has no length, so a proper instruction has to start at its address
    · obtain ⟨j, rest, hj, heq⟩ := ih.2 hne
      rw [show read.1 = [i, .marker i.next .notTerminated] from htwo]
      refine ⟨Placed.proper hproper hpos ?_, fun _ => ⟨i, _, hproper, rfl⟩⟩
      have hrest := ih.1
      rw [heq] at hrest ⊢
      have hnext' : j.addr = i.next := hrest.addr_eq
      rw [← hnext'] at hrest ⊢
      exact Placed.unterminated hj hrest

/-- The instructions of a script lie in a row from its first byte to its end. -/
theorem decode_placed (version : Version) (naming : Bool) (script : List UInt8) :
    Placed script.length 0 (decode version naming script) := by
  have h := (decodeFrom_placed version naming 0 script).1
  rw [Nat.zero_add] at h
  exact h

end Rio.Bytecode
