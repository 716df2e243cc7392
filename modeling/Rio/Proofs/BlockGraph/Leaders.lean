import Mathlib.Data.List.Sort
import Rio.Proofs.BlockGraph.Tiling
import Rio.Proofs.Bytecode.Operands

/-!
# Blocks from leaders

The textbook finds basic blocks in two passes. The first collects the leaders: the first address,
every address where a branch, jump or return ends, and every address where a branch or jump leads.
The second cuts the script at the leaders, and reads off the last instruction of each piece how it
is left. The draft does all this in one pass, and `build_eq_leaderBlocks` says that the two agree:

> if no branch or jump leads into the middle of an instruction, the graph has the blocks that the
> leaders give, predecessors apart.

A piece that ends the script and is not left by its last instruction leads nowhere, unless something
else leads to the end of the script: then it is taken to go on there.

The order in which the draft found its blocks has no part in the proof. `Drawn` already says where
blocks start and how a closed block is left, so it remains to see that under the hypothesis every
leader below the end is the entry of a closed block, and that the instruction a block was closed
by is the last one in it. Conversely `exists_block_of_flow` finds the block that an instruction
ends.
-/

namespace Rio

/-- The address in the script that an instruction leads to, if it is a well-formed branch or
jump. -/
def Instruction.target? (i : Instruction) : Option Nat :=
  i.flow?.bind Flow.target?

/-- Whether a block starts at an address because of an instruction: where one ends a block, and
where one leads. -/
def Instruction.leadsTo (i : Instruction) (a : Nat) : Bool :=
  i.flow?.isSome && a == i.next || i.target? == some a

/-- A `goto` leads to the script that its string names. -/
theorem Instruction.flow?_of_goto {raw : List UInt8} (i : Instruction) (hm : i.mnemonic = .goto)
    (hraw : i.operands = [.bytes raw]) : i.flow? = some (.procedure [scriptName raw]) := by
  unfold flow? procedures
  rw [hm, hraw]
  rfl

/-- A menu leads to the scripts of its choices, in their order. -/
theorem Instruction.flow?_of_option {choices : List MenuOption} (i : Instruction)
    (hm : i.mnemonic = .option) (hchoices : i.operands = [.options choices]) :
    i.flow? = some (.procedure (choices.map fun choice => scriptName choice.target)) := by
  unfold flow? procedures
  rw [hm, hchoices]
  exact congrArg (fun names => some (Flow.procedure names)) (List.append_nil _)

end Rio

namespace Rio.BlockGraph

/-! ## The textbook -/

/-- The leaders below `stop`, in order. -/
def leaders (l : List Instruction) (stop : Nat) : List Nat :=
  (List.range stop).filter fun a => a == 0 || l.any (·.leadsTo a)

/-- How the last instruction from `entry` up to `exit` passes on control. -/
def lastFlow? (l : List Instruction) (entry exit : Nat) : Option Flow :=
  (l.filter fun i => decide (entry ≤ i.addr) && decide (i.addr < exit)).getLast?.bind
    Instruction.flow?

/-- The block from `entry` up to `exit` in a script that ends at `stop`, without its
predecessors. -/
def leaderBlock (l : List Instruction) (stop entry exit : Nat) : Block :=
  match lastFlow? l entry exit with
  | some f => Block.ending entry exit (some f)
  | none =>
    if exit = stop ∧ ∀ i ∈ l, i.target? ≠ some stop then
      ⟨entry, some exit, .linear, none, none, [], []⟩
    else Block.ending entry exit none

/-- A block from each leader to the next one, and from the last one to the end. -/
def leaderBlocks (l : List Instruction) (stop : Nat) : List Nat → List Block
  | [] => []
  | [a] => [leaderBlock l stop a stop]
  | a :: b :: rest => leaderBlock l stop a b :: leaderBlocks l stop (b :: rest)

/-! ## Leaders -/

theorem mem_opens {f : Flow} {next a : Nat} :
    a ∈ f.opens next ↔ a = next ∨ f.target? = some a := by
  cases f <;> simp [Flow.opens, Flow.target?, eq_comm, or_comm]

theorem leadsTo_iff {i : Instruction} {a : Nat} :
    i.leadsTo a = true ↔ ∃ f, i.flow? = some f ∧ a ∈ f.opens i.next := by
  unfold Instruction.leadsTo Instruction.target?
  cases i.flow? with
  | none => simp
  | some f => simp [mem_opens]

/-- Leaders of instructions in a row. The marker of the end adds none. -/
theorem isLeader_iff (body : List Instruction) (stop a : Nat) :
    IsLeader body a ↔
      a = 0 ∨ (body ++ [Instruction.marker stop .endOfStream]).any (·.leadsTo a) = true := by
  have hmark : (Instruction.marker stop .endOfStream).leadsTo a = false := by
    rw [← Bool.not_eq_true, leadsTo_iff]
    rintro ⟨f, hf, -⟩
    exact (isProper_of_flow? hf).2 rfl
  rw [List.any_append, List.any_cons, List.any_nil, hmark, Bool.or_false, Bool.or_false]
  unfold IsLeader
  simp only [List.any_eq_true, leadsTo_iff]

/-- No branch or jump leads into the middle of an instruction. -/
def Aligned (l : List Instruction) (stop : Nat) : Prop :=
  ∀ i ∈ l, ∀ a ∈ i.target?, a < stop → ∃ j ∈ l, j.addr = a

/-- Then every leader up to the end is the address of an instruction. -/
theorem exists_addr_of_isLeader {stop a : Nat} {body : List Instruction}
    (hl : Bytecode.Placed stop 0 (body ++ [.marker stop .endOfStream]))
    (haligned : Aligned (body ++ [.marker stop .endOfStream]) stop) (ha : IsLeader body a)
    (hle : a ≤ stop) : ∃ j ∈ body ++ [.marker stop .endOfStream], j.addr = a := by
  rcases ha with rfl | ⟨i, hi, f, hf, hmem⟩
  · cases hbody : body ++ [Instruction.marker stop .endOfStream] with
    | nil => exact absurd hbody (by simp)
    | cons j rest =>
      rw [hbody] at hl
      exact ⟨j, List.mem_cons_self .., hl.addr_eq⟩
  · have hi' : i ∈ body ++ [.marker stop .endOfStream] := List.mem_append_left _ hi
    rcases mem_opens.mp hmem with rfl | htarget
    · exact hl.next_mem i hi'
    · rcases Nat.eq_or_lt_of_le hle with rfl | hlt
      · exact ⟨_, List.mem_append_right _ (List.mem_singleton.mpr rfl), rfl⟩
      · exact haligned i hi' a (by rw [Instruction.target?, hf]; exact htarget) hlt

/-! ## The last instruction of a block -/

/-- The last instruction between two addresses is the one that ends at the second. -/
theorem lastFlow?_eq {stop entry exit : Nat} {l : List Instruction} (hl : Bytecode.Placed stop 0 l)
    (hentry : ∃ j ∈ l, j.addr = entry) (hexit : ∃ j ∈ l, j.addr = exit) (hlt : entry < exit) :
    ∃ i ∈ l, i.IsProper ∧ i.next = exit ∧ lastFlow? l entry exit = i.flow? := by
  obtain ⟨before, i, after, rfl, hproper, hnext, hafter⟩ := hl.exists_next_eq hexit (by omega)
  have hi : i ∈ before ++ i :: after := List.mem_append_right _ (List.mem_cons_self ..)
  refine ⟨i, hi, hproper, hnext, ?_⟩
  have hle : entry ≤ i.addr := by
    obtain ⟨j, hj, rfl⟩ := hentry
    rcases hl.not_inside i hi j hj with h | h
    · exact h
    · omega
  have hless : i.addr < exit := by
    have hpos := hl.len_pos i hi hproper
    unfold Instruction.next at hnext
    omega
  have hnone : after.filter (fun j => decide (entry ≤ j.addr) && decide (j.addr < exit)) = [] := by
    rw [List.filter_eq_nil_iff]
    intro j hj
    have := hafter j hj
    simp only [Bool.and_eq_true, decide_eq_true_eq]
    omega
  unfold lastFlow?
  rw [List.filter_append, List.filter_cons_of_pos (by simp [hle, hless]), hnone,
    List.getLast?_append, List.getLast?_singleton]
  rfl

/-! ## The graph has the blocks of the leaders -/

/-- A tiling is cut at its own entries. -/
theorem eq_leaderBlocks {l : List Instruction} {stop : Nat} : ∀ {lo : Nat} {row : List Block},
    Tiles lo row stop →
    (∀ b ∈ row, ∀ x, b.exit = some x → b = leaderBlock l stop b.entry x) →
    row = leaderBlocks l stop (row.map (·.entry))
  | _, [], _, _ => rfl
  | _, [b], ⟨_, x, hx, _, h⟩, hblock => by
    have hstop : x = stop := h
    rw [List.map_singleton, leaderBlocks, ← hblock b (List.mem_cons_self ..) stop (hstop ▸ hx)]
  | _, b :: c :: rest, ⟨_, x, hx, _, h⟩, hblock => by
    have hentry : c.entry = x := h.1
    have hrest := eq_leaderBlocks h fun d hd => hblock d (List.mem_cons_of_mem _ hd)
    rw [List.map_cons] at hrest
    rw [List.map_cons, List.map_cons, leaderBlocks, ← hrest,
      ← hblock b (List.mem_cons_self ..) c.entry (hentry ▸ hx)]

section

variable {stop last : Nat} {body : List Instruction} {B : List Block}

/-- A closed block is the one that the textbook gives. -/
theorem Entered.eq_leaderBlock (h : Entered body stop B last)
    (hl : Bytecode.Placed stop 0 (body ++ [.marker stop .endOfStream]))
    (haligned : Aligned (body ++ [.marker stop .endOfStream]) stop) {b : Block} {x : Nat}
    (hb : b ∈ B) (hx : b.exit = some x) (hxleader : IsLeader body x) :
    b = leaderBlock (body ++ [.marker stop .endOfStream]) stop b.entry x := by
  obtain ⟨hlt, hxlast⟩ := h.drawn.bounds hb hx
  have hlast : last ≤ stop := h.drawn.top_le
  have hleader : IsLeader body b.entry :=
    (h.drawn.entries _).mp (List.mem_map.mpr ⟨b, hb, rfl⟩)
  obtain ⟨i, hi, hproper, hnext, hflow⟩ := lastFlow?_eq hl
    (exists_addr_of_isLeader hl haligned hleader (by omega))
    (exists_addr_of_isLeader hl haligned hxleader (by omega)) hlt
  have hibody : i ∈ body := by
    rcases List.mem_append.mp hi with hi | hi
    · exact hi
    · exact absurd (by rw [List.mem_singleton.mp hi]; rfl) hproper.2
  obtain ⟨f, hbf, hf⟩ := h.drawn.closed b hb x hx
  unfold leaderBlock
  rw [hflow, hf i hibody hproper hnext]
  cases f with
  | some g => exact hbf
  | none =>
    rw [if_neg]
    · exact hbf
    · -- the block was closed at the end because something leads there
      rintro ⟨rfl, hnone⟩
      rcases hxleader with h0 | ⟨j, hj, g, hg, hmem⟩
      · omega
      · rcases mem_opens.mp hmem with hjnext | htarget
        · rw [hf j hj (isProper_of_flow? hg) hjnext.symm] at hg
          exact absurd hg (by simp)
        · exact hnone j (List.mem_append_left _ hj)
            (by rw [Instruction.target?, hg]; exact htarget)

/-- So is the block that the end of the script closes. -/
theorem Entered.lastBlock_eq (h : Entered body stop B last)
    (hl : Bytecode.Placed stop 0 (body ++ [.marker stop .endOfStream]))
    (haligned : Aligned (body ++ [.marker stop .endOfStream]) stop) (hlt : last < stop) :
    lastBlock last stop = leaderBlock (body ++ [.marker stop .endOfStream]) stop last stop := by
  have hnot : ¬IsLeader body stop := fun hleader => absurd (h.fresh hleader) (by omega)
  have hstop : ∃ j ∈ body ++ [.marker stop .endOfStream], j.addr = stop :=
    ⟨_, List.mem_append_right _ (List.mem_singleton.mpr rfl), rfl⟩
  obtain ⟨i, hi, hproper, hnext, hflow⟩ := lastFlow?_eq hl
    (exists_addr_of_isLeader hl haligned h.leader (by omega)) hstop hlt
  have hleads : ∀ j ∈ body ++ [.marker stop .endOfStream], ∀ g, j.flow? = some g →
      stop ∉ g.opens j.next := by
    intro j hj g hg hmem
    rcases List.mem_append.mp hj with hj | hj
    · exact hnot (Or.inr ⟨j, hj, g, hg, hmem⟩)
    · exact (isProper_of_flow? hg).2 (by rw [List.mem_singleton.mp hj]; rfl)
  have hnone : i.flow? = none := by
    cases hg : i.flow? with
    | none => rfl
    | some g =>
      have hmem := next_mem_opens i.next g
      rw [hnext] at hmem
      have hno := hleads i hi g hg
      rw [hnext] at hno
      exact absurd hmem hno
  unfold leaderBlock
  rw [hflow, hnone]
  dsimp only
  rw [if_pos]
  · rfl
  · refine ⟨rfl, fun j hj htarget => ?_⟩
    obtain ⟨g, hg, ht⟩ := Option.bind_eq_some_iff.mp htarget
    exact hleads j hj g hg (mem_opens.mpr (Or.inr ht))

/-- The blocks that hold something start at the leaders. -/
theorem Entered.mem_entries_iff (h : Entered body stop B last)
    (hl : Bytecode.Placed stop 0 (body ++ [.marker stop .endOfStream]))
    (haligned : Aligned (body ++ [.marker stop .endOfStream]) stop) {row : List Block}
    (hperm : row.Perm (B.filter (·.exit.isSome))) (a : Nat) :
    a ∈ (row ++ if last < stop then [lastBlock last stop] else []).map (·.entry) ↔
      a < stop ∧ IsLeader body a := by
  have hlast : last ≤ stop := h.drawn.top_le
  constructor
  · intro ha
    obtain ⟨b, hb, rfl⟩ := List.mem_map.mp ha
    rcases List.mem_append.mp hb with hb | hb
    · obtain ⟨hmem, hsome⟩ := List.mem_filter.mp (hperm.mem_iff.mp hb)
      obtain ⟨x, hx⟩ := Option.isSome_iff_exists.mp hsome
      have hbounds := h.drawn.bounds hmem hx
      exact ⟨by omega, (h.drawn.entries _).mp (List.mem_map.mpr ⟨b, hmem, rfl⟩)⟩
    · split at hb
      · next hlt =>
        rw [List.mem_singleton.mp hb]
        exact ⟨hlt, h.leader⟩
      · exact absurd hb (by simp)
  · rintro ⟨hlt, hleader⟩
    obtain ⟨b, hb, rfl⟩ := List.mem_map.mp ((h.drawn.entries a).mpr hleader)
    rw [List.map_append, List.mem_append]
    -- a closed block is in the row, and an open one is the last
    cases hx : b.exit with
    | some x =>
      refine Or.inl (List.mem_map.mpr ⟨b, ?_, rfl⟩)
      exact hperm.mem_iff.mpr (List.mem_filter.mpr ⟨hb, by rw [hx]; rfl⟩)
    | none =>
      rcases h.drawn.ahead b hb hx with heq | hge | ⟨i, hi, hlo, hhi⟩
      · rw [heq] at hlt ⊢
        rw [if_pos hlt]
        exact Or.inr (List.mem_singleton.mpr rfl)
      · omega
      · -- a leader is the address of an instruction, so it lies in the middle of none
        obtain ⟨j, hj, hja⟩ := exists_addr_of_isLeader hl haligned hleader (by omega)
        rcases hl.not_inside i (List.mem_append_left _ hi) j hj with h' | h' <;> omega

end

/-- For instructions in a row, the blocks found in one pass start at the leaders, and each is the
one that the textbook gives. -/
theorem build_cut {stop : Nat} {l : List Instruction} (hl : Bytecode.Placed stop 0 l)
    (haligned : Aligned l stop) :
    (∀ b ∈ (build l).blocks.map Block.outline, ∀ x, b.exit = some x →
        b = leaderBlock l stop b.entry x) ∧
      ((build l).blocks.map Block.outline).map (·.entry) = leaders l stop := by
  have hall : Tiles 0 ((build l).blocks.map Block.outline) stop :=
    tiles_map_outline.mpr (tiles_build hl)
  obtain ⟨body, last, B, row, rfl, hent, hperm, htiles, hbuild⟩ := build_outline hl
  have hlast : last ≤ stop := hent.drawn.top_le
  have hsub : ∀ b ∈ row, b ∈ B := fun b hb => (List.mem_filter.mp (hperm.mem_iff.mp hb)).1
  rw [hbuild] at hall ⊢
  constructor
  · intro b hb x hx
    rcases List.mem_append.mp hb with hb | hb
    · refine hent.eq_leaderBlock hl haligned (hsub b hb) hx ?_
      -- a block of the row ends where the next one of the row starts, or where the last block does
      rcases htiles.exit_cases b hb x hx with rfl | ⟨c, hc, rfl⟩
      · exact hent.leader
      · exact (hent.drawn.entries _).mp (List.mem_map.mpr ⟨c, hsub c hc, rfl⟩)
    · split at hb
      · next hlt =>
        rw [List.mem_singleton.mp hb] at hx ⊢
        obtain rfl := Option.some.inj hx
        exact hent.lastBlock_eq hl haligned hlt
      · exact absurd hb (by simp)
  -- both lists are increasing, so it is enough that they have the same members
  · apply List.Pairwise.eq_of_mem_iff (r := (· < ·))
    · exact List.pairwise_map.mpr hall.sorted
    · exact List.pairwise_lt_range.filter _
    · intro a
      rw [hent.mem_entries_iff hl haligned hperm, leaders, List.mem_filter, List.mem_range,
        isLeader_iff body stop]
      simp only [Bool.or_eq_true, beq_iff_eq]

/-- The blocks of a script are those of its leaders, if no branch or jump leads into the middle of
an instruction. A block that ends with a `goto` leads to the script that its string names, one
that ends with a menu to the scripts of its choices, in their order. -/
theorem build_eq_leaderBlocks (version : Version) (naming : Bool) (script : List UInt8)
    (haligned : ∀ i ∈ Bytecode.decode version naming script, ∀ a ∈ i.target?,
      a < script.length → ∃ j ∈ Bytecode.decode version naming script, j.addr = a) :
    (build (Bytecode.decode version naming script)).blocks.map Block.outline
      = leaderBlocks (Bytecode.decode version naming script) script.length
          (leaders (Bytecode.decode version naming script) script.length) ∧
      ∀ i ∈ Bytecode.decode version naming script,
        (i.mnemonic = .goto → ∃ raw, i.operands = [.bytes raw] ∧
          i.flow? = some (.procedure [scriptName raw])) ∧
        (i.mnemonic = .option → ∃ choices, i.operands = [.options choices] ∧
          i.flow? = some (.procedure (choices.map fun choice => scriptName choice.target))) := by
  have hplaced := Bytecode.decode_placed version naming script
  constructor
  · obtain ⟨hblocks, hentries⟩ := build_cut hplaced haligned
    rw [← hentries]
    exact eq_leaderBlocks (tiles_map_outline.mpr (tiles_build hplaced)) hblocks
  · intro i hi
    obtain ⟨hgoto, hoption⟩ := Bytecode.decode_namesScripts version naming script i hi
    constructor
    · intro hm
      obtain ⟨raw, hraw⟩ := hgoto hm
      exact ⟨raw, hraw, i.flow?_of_goto hm hraw⟩
    · intro hm
      obtain ⟨choices, hchoices⟩ := hoption hm
      exact ⟨choices, hchoices, i.flow?_of_option hm hchoices⟩

/-- A pause, a branch over the next pause, a return, a jump back to the branch, which divides the
first block, a menu with two choices, and a `goto`. -/
theorem leaderBlocks_of_jump_back :
    leaders (Bytecode.decode .standard true
        [0x82, 1, 0, 0, 0x01, 3, 0xe6, 3, 0, 0, 4, 0, 0, 0, 0, 0x82, 2, 0, 0, 0x0a, 0,
          0x06, 4, 0, 0, 0, 0,
          0x02, 2, 0, 0, 0, 0x78, 0, 0, 1, 0, 0, 0x62, 0, 0, 0, 0x79, 0, 0, 2, 0, 0, 0xc3, 0xa9, 0,
          0x07, 0x63, 0]) 54 = [0, 4, 15, 19, 21, 27, 51] ∧
      (build (Bytecode.decode .standard true
        [0x82, 1, 0, 0, 0x01, 3, 0xe6, 3, 0, 0, 4, 0, 0, 0, 0, 0x82, 2, 0, 0, 0x0a, 0,
          0x06, 4, 0, 0, 0, 0,
          0x02, 2, 0, 0, 0, 0x78, 0, 0, 1, 0, 0, 0x62, 0, 0, 0, 0x79, 0, 0, 2, 0, 0, 0xc3, 0xa9, 0,
          0x07, 0x63, 0])).blocks.map Block.outline
        = [⟨0, some 4, .linear, some 4, none, [], []⟩,
            ⟨4, some 15, .conditional, some 15, some 19, [], []⟩,
            ⟨15, some 19, .linear, some 19, none, [], []⟩,
            ⟨19, some 21, .leave, none, none, [], []⟩,
            ⟨21, some 27, .jump, some 4, none, [], []⟩,
            ⟨27, some 51, .procedure, none, none, ["b", "é"], []⟩,
            ⟨51, some 54, .procedure, none, none, ["c"], []⟩] := by
  refine ⟨by decide +kernel, ?_⟩
  rw [(build_eq_leaderBlocks _ _ _ (by decide +kernel)).1]
  decide +kernel

/-! ## Blocks and the instructions that end them -/

/-- Blocks start and end at instructions. -/
theorem exists_addr_of_mem_leaders {stop a : Nat} {l : List Instruction}
    (hl : Bytecode.Placed stop 0 l) (haligned : Aligned l stop)
    (ha : a ∈ leaders l stop ∨ a = stop) :
    ∃ j ∈ l, j.addr = a := by
  obtain ⟨body, -, -, -, rfl, -⟩ := build_outline hl
  rcases ha with ha | rfl
  · obtain ⟨hlt, hleads⟩ := List.mem_filter.mp ha
    refine exists_addr_of_isLeader hl haligned ((isLeader_iff body stop a).mpr ?_)
      (Nat.le_of_lt (List.mem_range.mp hlt))
    simpa only [Bool.or_eq_true, beq_iff_eq] using hleads
  · exact ⟨_, List.mem_append_right _ (List.mem_singleton.mpr rfl), rfl⟩

section

variable {stop : Nat} {l : List Instruction} {b : Block}

theorem entry_mem_leaders (hl : Bytecode.Placed stop 0 l) (haligned : Aligned l stop)
    (hb : b ∈ (build l).blocks) : b.entry ∈ leaders l stop := by
  rw [← (build_cut hl haligned).2]
  exact List.mem_map_of_mem (f := (·.entry)) (List.mem_map_of_mem (f := Block.outline) hb)

theorem exists_addr_of_exit (hl : Bytecode.Placed stop 0 l) (haligned : Aligned l stop)
    (hb : b ∈ (build l).blocks) {x : Nat} (hx : b.exit = some x) : ∃ j ∈ l, j.addr = x := by
  apply exists_addr_of_mem_leaders hl haligned
  rcases (tiles_build hl).exit_cases b hb x hx with rfl | ⟨c, hc, rfl⟩
  · exact Or.inr rfl
  · exact Or.inl (entry_mem_leaders hl haligned hc)

/-- The block around an instruction that ends a block ends with it: no later, since a block starts
there, and no earlier, since nothing leads into the instruction. -/
theorem exit_eq_next (hl : Bytecode.Placed stop 0 l) (haligned : Aligned l stop)
    (hb : b ∈ (build l).blocks) {x : Nat} (hx : b.exit = some x) {i : Instruction} (hi : i ∈ l)
    {f : Flow} (hflow : i.flow? = some f) (hlo : b.entry ≤ i.addr) (hhi : i.addr < x) :
    x = i.next := by
  have hle : i.next ≤ x := by
    obtain ⟨j, hj, rfl⟩ := exists_addr_of_exit hl haligned hb hx
    rcases hl.not_inside i hi j hj with h | h
    · omega
    · exact h
  rcases Nat.eq_or_lt_of_le hle with h | hlt
  · exact h.symm
  · obtain ⟨y, hy, -, -, hstop⟩ := (tiles_build hl).bounds b hb
    rw [hx] at hy
    obtain rfl := Option.some.inj hy
    have hleader : i.next ∈ leaders l stop := by
      refine List.mem_filter.mpr ⟨List.mem_range.mpr (by omega), ?_⟩
      have hleads : i.leadsTo i.next = true := by simp [Instruction.leadsTo, hflow]
      simp only [Bool.or_eq_true, List.any_eq_true]
      exact Or.inr ⟨i, hi, hleads⟩
    rw [← (build_cut hl haligned).2, List.map_map] at hleader
    obtain ⟨c, hc, hentry⟩ := List.mem_map.mp hleader
    have hentry' : c.entry = i.next := hentry
    have hpos := hl.len_pos i hi (isProper_of_flow? hflow)
    have := (tiles_build hl).exit_le b hb c hc (by unfold Instruction.next at hentry'; omega) x hx
    omega

/-- Every instruction that ends a block is the last of one. -/
theorem exists_block_of_flow (hl : Bytecode.Placed stop 0 l) (haligned : Aligned l stop)
    {i : Instruction} (hi : i ∈ l) {f : Flow} (hflow : i.flow? = some f) :
    ∃ b ∈ (build l).blocks, b.outline = Block.ending b.entry i.next (some f) := by
  have hproper := isProper_of_flow? hflow
  have hpos := hl.len_pos i hi hproper
  have hend := hl.next_le i hi
  have htiles := tiles_build hl
  obtain ⟨b, hb, hcontains⟩ := htiles.covers i.addr (Nat.zero_le _)
    (by unfold Instruction.next at hend; omega)
  obtain ⟨x, hx, -, hlt, -⟩ := htiles.bounds b hb
  obtain ⟨hlo, hhi⟩ := (contains_iff hx).mp hcontains
  have hxnext := exit_eq_next hl haligned hb hx hi hflow hlo hhi
  obtain ⟨j, hj, hjproper, hjnext, hlast⟩ := lastFlow?_eq hl
    (exists_addr_of_mem_leaders hl haligned (Or.inl (entry_mem_leaders hl haligned hb)))
    (exists_addr_of_exit hl haligned hb hx) hlt
  obtain rfl : j = i := hl.eq_of_next_eq j hj i hi hjproper hproper (hjnext.trans hxnext)
  have hcut : b.outline = leaderBlock l stop b.entry x :=
    (build_cut hl haligned).1 b.outline (List.mem_map_of_mem hb) x hx
  rw [leaderBlock, hlast, hflow, hxnext] at hcut
  exact ⟨b, hb, hcut⟩

/-- A block that ends in a jump ends in one of the script. -/
theorem exists_jump_of_kind (hl : Bytecode.Placed stop 0 l) (haligned : Aligned l stop)
    (hb : b ∈ (build l).blocks) (hkind : b.kind = .jump) {goal : Nat}
    (htarget : b.trueTarget = some goal) : ∃ i ∈ l, i.flow? = some (.jump goal) := by
  obtain ⟨x, hx, -⟩ := (tiles_build hl).bounds b hb
  have hcut : b.outline = leaderBlock l stop b.entry x :=
    (build_cut hl haligned).1 b.outline (List.mem_map_of_mem hb) x hx
  have hkind' : (leaderBlock l stop b.entry x).kind = .jump := hcut ▸ hkind
  have htarget' : (leaderBlock l stop b.entry x).trueTarget = some goal := hcut ▸ htarget
  unfold leaderBlock at hkind' htarget'
  split at hkind'
  · next f hf =>
    rw [hf] at htarget'
    cases f with
    | jump goal' =>
      obtain rfl : goal' = goal := Option.some.inj htarget'
      obtain ⟨i, hi, hflow⟩ := Option.bind_eq_some_iff.mp hf
      exact ⟨i, (List.mem_filter.mp (List.mem_of_getLast? hi)).1, hflow⟩
    | branch _ | procedure _ | leave => cases hkind'
  · split at hkind' <;> cases hkind'

/-- The blocks that end in a jump lead to the goals of the jumps. -/
theorem mem_jumpGoals_iff (hl : Bytecode.Placed stop 0 l) (haligned : Aligned l stop) (goal : Nat) :
    goal ∈ ((build l).blocks.filter (·.kind == .jump)).filterMap (·.trueTarget) ↔
      ∃ i ∈ l, i.flow? = some (.jump goal) := by
  simp only [List.mem_filterMap, List.mem_filter, beq_iff_eq]
  constructor
  · rintro ⟨b, ⟨hb, hkind⟩, htarget⟩
    exact exists_jump_of_kind hl haligned hb hkind htarget
  · rintro ⟨i, hi, hflow⟩
    obtain ⟨b, hb, hcut⟩ := exists_block_of_flow hl haligned hi hflow
    exact ⟨b, ⟨hb, congrArg Block.kind hcut⟩, congrArg Block.trueTarget hcut⟩

end

end Rio.BlockGraph
