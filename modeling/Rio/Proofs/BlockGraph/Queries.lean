import Rio.Proofs.BlockGraph.Jumps

/-!
# Looking things up in a block graph

The block of an address is found as the last one that does not start behind it, and the
instructions of a block are cut out of the script at two addresses. Both go by order: blocks are
in the order of their entries, and addresses never go back along a script, though a marker has the
address of the instruction behind it. `build_decode_queries` says that the answers are the plain
ones:

> the block that is found is the only one whose range has the address, the instructions of a block
> are those whose addresses lie in its range, and the blocks together have every instruction once,
> but for the end.

A block may start or end in the middle of an instruction; such an instruction belongs to the block
that it starts in.
-/

namespace Rio

/-- An address lies in the range of a block. -/
def Block.Covers (b : Block) (addr : Nat) : Prop :=
  ∃ exit, b.exit = some exit ∧ b.entry ≤ addr ∧ addr < exit

/-- The instructions that start from `lo` on, before `hi`. -/
def instructionsIn (l : List Instruction) (lo hi : Nat) : List Instruction :=
  l.filter fun i => decide (lo ≤ i.addr) && decide (i.addr < hi)

/-! ## Cutting a script at addresses -/

section

variable {l : List Instruction} {lo mid hi : Nat}

/-- A bound on the addresses cuts a script. -/
theorem pairwise_addr_lt (h : l.Pairwise fun i j => i.addr ≤ j.addr) (bound : Nat) :
    l.Pairwise fun i j => decide (j.addr < bound) = true → decide (i.addr < bound) = true :=
  h.imp fun hle hlt => decide_eq_true (Nat.lt_of_le_of_lt hle (of_decide_eq_true hlt))

/-- Two cuts leave what lies between them. -/
theorem takeWhile_dropWhile_addr (h : l.Pairwise fun i j => i.addr ≤ j.addr) (lo hi : Nat) :
    (l.dropWhile fun i => decide (i.addr < lo)).takeWhile (fun i => decide (i.addr < hi))
      = instructionsIn l lo hi := by
  have hdrop := dropWhile_eq_filter (pairwise_addr_lt h lo)
  have hleft : (l.dropWhile fun i => decide (i.addr < lo)).Pairwise fun i j => i.addr ≤ j.addr :=
    h.sublist (List.dropWhile_sublist _)
  rw [takeWhile_eq_filter (pairwise_addr_lt hleft hi), hdrop, List.filter_filter]
  refine List.filter_congr fun i _ => ?_
  rw [Bool.and_comm, ← decide_not]
  simp only [Nat.not_lt]

/-- A cut in between. -/
theorem instructionsIn_append (h : l.Pairwise fun i j => i.addr ≤ j.addr) (hlo : lo ≤ mid)
    (hhi : mid ≤ hi) :
    instructionsIn l lo mid ++ instructionsIn l mid hi = instructionsIn l lo hi := by
  have hin : (instructionsIn l lo hi).Pairwise fun i j => i.addr ≤ j.addr := h.filter _
  have hcut := pairwise_addr_lt hin mid
  rw [← List.takeWhile_append_dropWhile (p := fun i => decide (i.addr < mid))
    (l := instructionsIn l lo hi), takeWhile_eq_filter hcut, dropWhile_eq_filter hcut]
  unfold instructionsIn
  rw [List.filter_filter, List.filter_filter]
  congr 1
  · refine List.filter_congr fun i _ => ?_
    grind
  · refine List.filter_congr fun i _ => ?_
    grind

end

/-- A script is what lies before its end, and the marker there. -/
theorem Bytecode.Placed.instructionsIn_append_end {stop addr : Nat} {l : List Instruction}
    (h : Placed stop addr l) : instructionsIn l 0 stop ++ [.marker stop .endOfStream] = l := by
  -- all but the last start before the end: an instruction takes bytes, a marker stands before one
  have keep : ∀ {i : Instruction} {l : List Instruction}, i.addr < stop →
      instructionsIn (i :: l) 0 stop = i :: instructionsIn l 0 stop := by
    intro i l hlt
    exact List.filter_cons_of_pos (by simpa using hlt)
  induction h with
  | last =>
    have hnil : instructionsIn [.marker stop .endOfStream] 0 stop = [] :=
      List.filter_cons_of_neg (by simp [Instruction.marker])
    rw [hnil, List.nil_append]
  | @proper i rest hproper hpos hrest ih =>
    have hnext := (Placed.proper hproper hpos hrest).next_le i (List.mem_cons_self ..)
    unfold Instruction.next at hnext
    rw [keep (by omega), List.cons_append, ih]
  | @unterminated i rest hproper hrest ih =>
    have hnext := hrest.next_le i (List.mem_cons_self ..)
    have hpos := hrest.len_pos i (List.mem_cons_self ..) hproper
    unfold Instruction.next at hnext
    have hlt : i.addr < stop := by omega
    rw [keep (show (Instruction.marker i.addr .notTerminated).addr < stop from hlt),
      List.cons_append, ih]

namespace BlockGraph

variable {stop : Nat} {l : List Instruction}

/-! ## The instructions of a block -/

theorem contains_iff_covers {b : Block} {addr : Nat} : b.contains addr = true ↔ b.Covers addr := by
  unfold Block.contains Block.Covers
  cases b.exit with
  | none => simp
  | some exit => simp

instance (b : Block) (addr : Nat) : Decidable (b.Covers addr) :=
  decidable_of_iff _ contains_iff_covers

theorem instructionsFrom_eq (hl : l.Pairwise fun i j => i.addr ≤ j.addr) {b : Block} {x : Nat}
    (hx : b.exit = some x) (addr : Nat) :
    b.instructionsFrom l addr = instructionsIn l (max addr b.entry) x := by
  unfold Block.instructionsFrom
  rw [hx]
  exact takeWhile_dropWhile_addr hl _ x

/-- The instructions of a block are those that start in its range. -/
theorem instructions_eq (hl : l.Pairwise fun i j => i.addr ≤ j.addr) {b : Block} {x : Nat}
    (hx : b.exit = some x) : b.instructions l = instructionsIn l b.entry x := by
  rw [Block.instructions, instructionsFrom_eq hl hx, Nat.max_self]

theorem instructionsFrom_eq_filter (hl : l.Pairwise fun i j => i.addr ≤ j.addr) {b : Block}
    {x : Nat} (hx : b.exit = some x) (addr : Nat) :
    b.instructionsFrom l addr = (b.instructions l).filter fun i => decide (addr ≤ i.addr) := by
  rw [instructionsFrom_eq hl hx, instructions_eq hl hx]
  unfold instructionsIn
  rw [List.filter_filter]
  refine List.filter_congr fun i _ => ?_
  simp only [Nat.max_le, Bool.decide_and, Bool.and_assoc]

/-- The last instruction of a block that branches is the branch. -/
theorem branch_of_getLast? (hl : Bytecode.Placed stop 0 l) {p : Block} (hp : p ∈ (build l).blocks)
    (hkind : p.kind = .conditional) {i : Instruction}
    (hlast : (p.instructions l).getLast? = some i) :
    ∃ target, i.flow? = some (.branch target) ∧ p.exit = some i.next ∧ p.trueTarget = some i.next ∧
      p.falseTarget = some target := by
  obtain ⟨j, hj, target, hflow, hexit, htrue, hfalse⟩ := exists_branch_of_conditional hp hkind
  -- nothing of the block stands behind the branch, as the branch ends at the exit
  suffices heq : i = j from heq ▸ ⟨target, hflow, hexit, htrue, hfalse⟩
  rw [instructions_eq hl.sorted hexit] at hlast
  obtain ⟨hi, hrange⟩ := List.mem_filter.mp (List.mem_of_getLast? hlast)
  simp only [Bool.and_eq_true, decide_eq_true_eq] at hrange
  have hinside := hl.not_inside j hj i hi
  have hlen := hl.len_pos j hj (isProper_of_flow? hflow)
  have hnext : j.next = j.addr + j.len := rfl
  have hkeep : p.entry ≤ j.addr ∧ j.addr < j.next := by omega
  obtain ⟨before, after, rfl⟩ := List.append_of_mem hj
  have hafter :
      after.filter (fun k => decide (p.entry ≤ k.addr) && decide (k.addr < j.next)) = [] := by
    refine List.filter_eq_nil_iff.mpr fun k hk => ?_
    have hbehind := (List.pairwise_cons.mp (List.pairwise_append.mp hl.pairwise).2.1).1 k hk
    simp only [Bool.and_eq_true, decide_eq_true_eq]
    omega
  rw [instructionsIn, List.filter_append, List.filter_cons_of_pos (by simpa using hkeep), hafter,
    List.getLast?_concat] at hlast
  exact (Option.some.inj hlast).symm

/-- Blocks that lie side by side have what starts in the range that they cover. -/
theorem Tiles.flatMap_instructions (hl : l.Pairwise fun i j => i.addr ≤ j.addr) :
    ∀ {lo hi : Nat} {row : List Block}, Tiles lo row hi →
      row.flatMap (·.instructions l) = instructionsIn l lo hi
  | lo, hi, [], h => by
    rw [Tiles] at h
    subst h
    refine (List.filter_eq_nil_iff.mpr fun i _ => ?_).symm
    simp
  | lo, hi, b :: rest, ⟨he, x, hx, hlt, h⟩ => by
    rw [List.flatMap_cons, instructions_eq hl hx, he, h.flatMap_instructions hl,
      instructionsIn_append hl (Nat.le_of_lt hlt) h.le]

/-! ## The block of an address -/

theorem Tiles.blockContaining?_eq_some_iff {lo hi : Nat} {g : BlockGraph} (h : Tiles lo g.blocks hi)
    {addr : Nat} {b : Block} :
    g.blockContaining? addr = some b ↔ b ∈ g.blocks ∧ b.contains addr = true := by
  unfold blockContaining?
  rw [Option.filter_eq_some_iff]
  constructor
  · intro ⟨hlast, hin⟩
    exact ⟨(List.mem_filter.mp (List.mem_of_getLast? hlast)).1, hin⟩
  · intro ⟨hb, hin⟩
    obtain ⟨x, hx, -⟩ := h.bounds b hb
    obtain ⟨hle, hlt⟩ := (contains_iff hx).mp hin
    obtain ⟨front, back, hrow⟩ := List.append_of_mem hb
    have hsorted := h.sorted
    rw [hrow, List.pairwise_append, List.pairwise_cons] at hsorted
    -- whatever stands behind the block starts behind its exit
    have hbehind : back.filter (fun c => decide (c.entry ≤ addr)) = [] := by
      refine List.filter_eq_nil_iff.mpr fun c hc => ?_
      have hc' : c ∈ g.blocks := hrow ▸ List.mem_append_right _ (List.mem_cons_of_mem _ hc)
      have hexit := h.exit_le b hb c hc' (hsorted.2.1.1 c hc) x hx
      rw [decide_eq_true_iff]
      omega
    refine ⟨?_, hin⟩
    rw [hrow, List.filter_append, List.filter_cons_of_pos (by simpa using hle), hbehind]
    exact List.getLast?_concat

/-- No block has an address iff the address is not in the script. -/
theorem Tiles.blockContaining?_eq_none_iff {hi : Nat} {g : BlockGraph} (h : Tiles 0 g.blocks hi)
    {addr : Nat} :
    g.blockContaining? addr = none ↔ hi ≤ addr := by
  constructor
  · intro hnone
    rcases Nat.lt_or_ge addr hi with hlt | hge
    · obtain ⟨b, hb, hin⟩ := h.covers addr (Nat.zero_le _) hlt
      rw [h.blockContaining?_eq_some_iff.mpr ⟨hb, hin⟩] at hnone
      cases hnone
    · exact hge
  · intro hle
    cases hfound : g.blockContaining? addr with
    | none => rfl
    | some b =>
      obtain ⟨hb, hin⟩ := h.blockContaining?_eq_some_iff.mp hfound
      obtain ⟨x, hx, -, -, hbound⟩ := h.bounds b hb
      have hlt := ((contains_iff hx).mp hin).2
      omega

/-- Looking up an address or the instructions of a block gives the plain answer, and the blocks
partition every script. -/
theorem build_decode_queries (version : Version) (naming : Bool) (script : List UInt8) :
    let l := Bytecode.decode version naming script
    let g := build l
    (∀ addr < script.length, ∃! b, b ∈ g.blocks ∧ b.Covers addr) ∧
      (∀ addr b, g.blockContaining? addr = some b ↔ b ∈ g.blocks ∧ b.Covers addr) ∧
      (∀ addr, g.blockContaining? addr = none ↔ script.length ≤ addr) ∧
      (∀ b ∈ g.blocks, ∃ x, b.exit = some x ∧ b.instructions l = instructionsIn l b.entry x ∧
        (∀ addr, b.instructionsFrom l addr = (b.instructions l).filter
          fun i => decide (addr ≤ i.addr)) ∧
        b.laterInstructions l = (b.instructions l).tail) ∧
      g.blocks.flatMap (·.instructions l) ++ [.marker script.length .endOfStream] = l := by
  intro l g
  have hl : Bytecode.Placed script.length 0 l := Bytecode.decode_placed version naming script
  have htiles : Tiles 0 g.blocks script.length := tiles_build hl
  have hfound : ∀ addr b, g.blockContaining? addr = some b ↔ b ∈ g.blocks ∧ b.Covers addr := by
    intro addr b
    rw [htiles.blockContaining?_eq_some_iff, contains_iff_covers]
  refine ⟨?_, hfound, fun addr => htiles.blockContaining?_eq_none_iff, ?_, ?_⟩
  · intro addr hlt
    obtain ⟨b, hb, hin⟩ := htiles.covers addr (Nat.zero_le _) hlt
    refine ⟨b, ⟨hb, contains_iff_covers.mp hin⟩, fun c hc => ?_⟩
    have hfirst := (hfound addr b).mpr ⟨hb, contains_iff_covers.mp hin⟩
    rw [(hfound addr c).mpr hc] at hfirst
    exact Option.some.inj hfirst
  · intro b hb
    obtain ⟨x, hx, -⟩ := htiles.bounds b hb
    exact ⟨x, hx, instructions_eq hl.sorted hx, instructionsFrom_eq_filter hl.sorted hx,
      List.drop_one⟩
  · rw [htiles.flatMap_instructions hl.sorted]
    exact hl.instructionsIn_append_end

/-- A pause, and a jump into the middle of it. -/
def jumpIntoPause : List UInt8 :=
  [0x82, 1, 0, 0, 0x06, 1, 0, 0, 0, 0, 0x0a, 0]

theorem build_jumpIntoPause :
    build (Bytecode.decode .standard true jumpIntoPause)
      = ⟨[⟨0, some 1, .linear, some 1, none, [], []⟩, ⟨1, some 10, .jump, some 1, none, [], [0, 1]⟩,
          ⟨10, some 12, .leave, none, none, [], []⟩]⟩ :=
  build_eq_of_perm (by decide +kernel) (by decide)

/-- The middle of the pause is in the block of the jump, which has the jump and not the pause. -/
theorem queries_of_jumpIntoPause :
    let l := Bytecode.decode .standard true jumpIntoPause
    let b : Block := ⟨1, some 10, .jump, some 1, none, [], [0, 1]⟩
    (build l).blockContaining? 2 = some b ∧ (∃! c, c ∈ (build l).blocks ∧ c.Covers 2) ∧
      b.instructions l = [⟨4, 6, some 0x06, .jmpOffset, [.int 1]⟩] := by
  intro l b
  obtain ⟨hunique, hfound, -, hblocks, -⟩ := build_decode_queries .standard true jumpIntoPause
  have hb : b ∈ (build l).blocks := by
    rw [build_jumpIntoPause]
    decide
  refine ⟨(hfound 2 b).mpr ⟨hb, by decide⟩, hunique 2 (by decide), ?_⟩
  obtain ⟨x, hx, hin, -⟩ := hblocks b hb
  obtain rfl : 10 = x := Option.some.inj hx
  rw [hin]
  decide +kernel

end BlockGraph

end Rio
