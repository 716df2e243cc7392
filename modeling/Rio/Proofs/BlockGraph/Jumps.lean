import Rio.Proofs.BlockGraph.Tiling

/-!
# Where the jumps of a script lead

The blocks of a graph that end in a jump tell the goals of all jumps, and of nothing else:

> `mem_trueTargets_iff`: an address is the goal of a block that ends in a jump exactly if some
> instruction of the script jumps there.

This needs no assumption about where branches lead, unlike the leaders, which have to be addresses
of instructions. From left to right, `Grounded` is kept by everything that happens to a draft: no
block is turned into one that branches or jumps except by a branch or a jump, and such a block
ends with it (`exists_branch_of_conditional`). From right to left, a block ends wherever an
instruction ends one, and is then left as that instruction says. So no instruction stands in a
block behind one that ends it (`exit_le_next`).
-/

namespace Rio.BlockGraph

/-! ## Blocks are left as instructions say -/

/-- A block that branches or jumps does so because of one of the instructions, and ends with it. -/
def LeftBy (l : List Instruction) (b : Block) : Prop :=
  match b.kind with
  | .conditional => ∃ i ∈ l, ∃ target, i.flow? = some (.branch target) ∧ b.exit = some i.next ∧
      b.trueTarget = some i.next ∧ b.falseTarget = some target
  | .jump => ∃ i ∈ l, ∃ goal, i.flow? = some (.jump goal) ∧ b.exit = some i.next ∧
      b.trueTarget = some goal
  | .linear | .procedure | .leave => True

/-- All blocks are left as instructions say, and an open block just goes on. -/
structure Grounded (l : List Instruction) (blocks : List Block) : Prop where
  left : ∀ b ∈ blocks, LeftBy l b
  linear : ∀ b ∈ blocks, b.exit = none → b.kind = .linear

namespace Grounded

variable {l : List Instruction} {B : List Block} {d : Draft}

/-- A change is harmless if an instruction says so and it does not open a block. -/
theorem changeAt (h : Grounded l B) (entry : Nat) {change : Block → Block}
    (hleft : ∀ b ∈ B, LeftBy l (change b))
    (hlinear : ∀ b ∈ B, (change b).exit = none → b.exit = none ∧ (change b).kind = b.kind) :
    Grounded l (changeAt B entry change) := by
  constructor
  · intro b hb
    obtain ⟨a, ha, rfl⟩ := List.mem_map.mp hb
    split
    · exact hleft a ha
    · exact h.left a ha
  · intro b hb hexit
    obtain ⟨a, ha, rfl⟩ := List.mem_map.mp hb
    split at hexit
    · next he =>
      obtain ⟨hopen, hkind⟩ := hlinear a ha hexit
      rw [if_pos he, hkind]
      exact h.linear a ha hopen
    · next he =>
      rw [if_neg he]
      exact h.linear a ha hexit

/-- A block may be closed as an instruction says. -/
theorem close (h : Grounded l B) (entry : Nat) {change : Block → Block}
    (hleft : ∀ b, LeftBy l (change b)) (hexit : ∀ b, (change b).exit ≠ none) :
    Grounded l (BlockGraph.changeAt B entry change) :=
  h.changeAt entry (fun b _ => hleft b) fun b _ hopen => absurd hopen (hexit b)

/-- An open block may be closed and stays linear. -/
theorem close_open (h : Grounded l B) (entry : Nat) {change : Block → Block}
    (hkind : ∀ b, (change b).kind = b.kind) (hexit : ∀ b, (change b).exit ≠ none) :
    Grounded l (BlockGraph.changeAt B entry fun b => if b.exit.isNone then change b else b) := by
  refine h.changeAt entry ?_ ?_
  · intro b hb
    split
    · next hopen =>
      unfold LeftBy
      rw [hkind, h.linear b hb (by simpa using hopen)]
      trivial
    · exact h.left b hb
  · intro b _ hopen
    split at hopen
    · exact absurd hopen (hexit b)
    · next hclosed => exact ⟨hopen, by rw [if_neg hclosed]⟩

theorem append (h : Grounded l B) {b : Block} (hb : Grounded l [b]) : Grounded l (B ++ [b]) := by
  constructor
  · intro a ha
    rcases List.mem_append.mp ha with ha | ha
    · exact h.left a ha
    · exact hb.left a ha
  · intro a ha
    rcases List.mem_append.mp ha with ha | ha
    · exact h.linear a ha
    · exact hb.linear a ha

theorem opened (addr : Nat) : Grounded l [Block.opened addr] := by
  constructor
  · intro b hb
    rw [List.mem_singleton.mp hb]
    trivial
  · intro b hb _
    rw [List.mem_singleton.mp hb]
    rfl

theorem outline : Grounded l d.outline ↔ Grounded l d.blocks := by
  constructor
  · intro h
    exact ⟨fun b hb => h.left b.outline (List.mem_map_of_mem hb),
      fun b hb => h.linear b.outline (List.mem_map_of_mem hb)⟩
  · intro h
    constructor
    · intro b hb
      obtain ⟨a, ha, rfl⟩ := List.mem_map.mp hb
      exact h.left a ha
    · intro b hb
      obtain ⟨a, ha, rfl⟩ := List.mem_map.mp hb
      exact h.linear a ha

/-- The second part of a divided block is left as the whole block was, the first part goes on. -/
theorem define (h : Grounded l d.blocks) (addr : Nat) (predecessor : Option Nat) :
    Grounded l (d.define addr predecessor).blocks := by
  rw [← outline] at h ⊢
  rw [Draft.define_outline]
  unfold defineIn
  split
  · exact h
  · cases hfind : d.outline.find? (·.contains addr) with
    | none => exact h.append (.opened addr)
    | some head =>
      have hmem := List.mem_of_find?_eq_some hfind
      refine append (h.changeAt _ ?_ ?_) ⟨?_, ?_⟩
      · intro b _
        trivial
      · intro b _ hexit
        cases hexit
      · intro b hb
        rw [List.mem_singleton.mp hb]
        exact h.left head hmem
      · intro b hb
        rw [List.mem_singleton.mp hb]
        exact h.linear head hmem

theorem enter (h : Grounded l d.blocks) (current addr : Nat) :
    Grounded l (d.enter current addr).1.blocks := by
  unfold Draft.enter
  split
  · exact h.close_open current (fun _ => rfl) (fun _ => by simp)
  · exact h

theorem leave (h : Grounded l d.blocks) (current : Nat) {i : Instruction} (hi : i ∈ l) :
    Grounded l (d.leave current i).blocks := by
  have hclose : ∀ change : Block → Block, (∀ b, LeftBy l (change b)) →
      (∀ b, (change b).exit ≠ none) → Grounded l (d.update current change).blocks :=
    fun _ hleft hexit => h.close current hleft hexit
  -- one case for each way out of a block, in the order in which `leave` asks for them
  unfold Draft.leave
  split
  · next hcond =>
    split
    · exact h
    · next target htarget =>
      have hflow : i.flow? = some (.branch target) := by
        rw [Instruction.flow?, if_pos hcond, htarget, Option.map_some]
      have hbranch := hclose (fun b => { b with
          exit := some i.next, kind := .conditional, trueTarget := some i.next,
          falseTarget := some target })
        (fun _ => ⟨i, hi, target, hflow, rfl, rfl, rfl⟩) (fun _ => by simp)
      exact (hbranch.define _ _).define _ _
  · next hcond =>
    split
    · next hjump =>
      split
      · exact h
      · next target htarget =>
        have hflow : i.flow? = some (.jump target) := by
          rw [Instruction.flow?, if_neg hcond, if_pos hjump, htarget, Option.map_some]
        have hjumped := hclose (fun b => { b with
            exit := some i.next, kind := .jump, trueTarget := some target })
          (fun _ => ⟨i, hi, target, hflow, rfl, rfl⟩) (fun _ => by simp)
        exact (hjumped.define _ _).define _ _
    · split
      · exact (hclose _ (fun _ => by trivial) (fun _ => by simp)).define _ _
      · split
        · exact (hclose _ (fun _ => by trivial) (fun _ => by simp)).define _ _
        · split
          · exact h.close_open current (fun _ => rfl) (fun _ => by simp)
          · exact h

theorem foldl_step {l' : List Instruction} (hl : ∀ i ∈ l', i ∈ l) :
    ∀ {d : Draft} {current : Nat}, Grounded l d.blocks →
      Grounded l (l'.foldl Draft.step (d, current)).1.blocks := by
  induction l' with
  | nil => exact fun h => h
  | cons i l' ih =>
    intro d current h
    rw [List.foldl_cons]
    exact ih (fun j hj => hl j (List.mem_cons_of_mem _ hj))
      ((h.enter current i.addr).leave _ (hl i (List.mem_cons_self ..)))

end Grounded

theorem leftBy_build (l : List Instruction) : ∀ b ∈ (build l).blocks, LeftBy l b := by
  have hdraft : Grounded l (Draft.ofInstructions l).blocks := by
    apply Grounded.foldl_step (fun i hi => hi)
    exact Grounded.define (d := ⟨[], []⟩) ⟨fun _ hb => (by cases hb), fun _ hb => (by cases hb)⟩ _ _
  -- sorting and dropping blocks adds none
  intro b hb
  exact hdraft.left b (List.mem_filter.mp (List.mem_mergeSort.mp hb)).1

/-- A block that branches ends with the branch. -/
theorem exists_branch_of_conditional {l : List Instruction} {b : Block} (hb : b ∈ (build l).blocks)
    (hkind : b.kind = .conditional) :
    ∃ i ∈ l, ∃ target, i.flow? = some (.branch target) ∧ b.exit = some i.next ∧
      b.trueTarget = some i.next ∧ b.falseTarget = some target := by
  have hleft := leftBy_build l b hb
  unfold LeftBy at hleft
  rw [hkind] at hleft
  exact hleft

/-! ## Every jump ends a block -/

variable {stop : Nat} {l : List Instruction}

/-- A block that starts where an instruction does is closed, unless it is the last one. -/
theorem Entered.exit_ne_none {body : List Instruction} {B : List Block} {last : Nat}
    (hent : Entered body stop B last)
    (hinside : ∀ j ∈ body, ∀ i ∈ body, i.next ≤ j.addr ∨ j.next ≤ i.next) {i : Instruction}
    (hi : i ∈ body) {b : Block} (hb : b ∈ B) (hentry : b.entry = i.next) (hne : i.next ≠ last)
    (hlt : i.next < stop) : b.exit ≠ none := by
  intro hopen
  rcases hent.drawn.ahead b hb hopen with htop | hge | ⟨j, hj, hin⟩
  · omega
  · omega
  · rcases hinside j hj i hi with h | h <;> omega

/-- Where an instruction ends a block, a closed block ends. -/
theorem Entered.exists_exit_eq {body : List Instruction} {B : List Block} {last : Nat}
    (hent : Entered body stop B last)
    (hinside : ∀ j ∈ body, ∀ i ∈ body, i.next ≤ j.addr ∨ j.next ≤ i.next) {i : Instruction}
    (hi : i ∈ body) (hpos : 0 < i.len) (hflow : i.flow? ≠ none) :
    ∃ b ∈ B, b.exit = some i.next := by
  have hleader := isLeader_next hi hflow
  have hstop := hent.drawn.past i hi
  obtain ⟨c, hc, hcentry⟩ := List.mem_map.mp ((hent.drawn.entries i.next).mpr hleader)
  -- the block that starts behind the instruction cannot be beyond the last one
  have hle : i.next ≤ last := by
    rcases hent.outside i hi with hle | hge
    · exact hle
    · exfalso
      have hlast : last < i.next := by
        unfold Instruction.next
        omega
      have hopen : c.exit = none := by
        rw [hent.drawn.eq_opened hc (by omega)]
        rfl
      rcases Nat.lt_or_ge i.next stop with hlt | hge'
      · exact hent.exit_ne_none hinside hi hc hcentry (by omega) hlt hopen
      · have heq : i.next = stop := by omega
        have := hent.fresh (heq ▸ hleader)
        omega
  obtain ⟨row, hperm, htiles⟩ := hent.drawn.tiled
  have hrow : ∀ b, b ∈ row ↔ b ∈ B ∧ b.exit.isSome = true :=
    fun b => hperm.mem_iff.trans List.mem_filter
  have hnext : 0 < i.next := by
    unfold Instruction.next
    omega
  obtain ⟨b, hb, hcontains⟩ := htiles.covers (i.next - 1) (Nat.zero_le _) (by omega)
  obtain ⟨x, hx, -, -, hxlast⟩ := htiles.bounds b hb
  obtain ⟨hlo, hhi⟩ := (contains_iff hx).mp hcontains
  refine ⟨b, ((hrow b).mp hb).1, ?_⟩
  rw [hx]
  rcases Nat.eq_or_lt_of_le hle with heq | hlt
  · -- nothing is tiled beyond the last block
    congr 1
    omega
  · have hclosed := hent.exit_ne_none hinside hi hc hcentry (by omega)
      (Nat.lt_of_lt_of_le hlt hent.drawn.top_le)
    have hcrow : c ∈ row := (hrow c).mpr ⟨hc, Option.isSome_iff_ne_none.mpr hclosed⟩
    have hxle := htiles.exit_le b hb c hcrow (by omega) x hx
    congr 1
    omega

/-- An instruction that ends a block is the last of one. -/
theorem exists_ending_of_flow (hl : Bytecode.Placed stop 0 l) {i : Instruction} (hi : i ∈ l)
    {f : Flow} (hflow : i.flow? = some f) :
    ∃ b ∈ (build l).blocks, b.outline = Block.ending b.entry i.next (some f) := by
  have hproper := isProper_of_flow? hflow
  have hpos := hl.len_pos i hi hproper
  obtain ⟨body, last, B, row, hbody, hent, hperm, -, hout⟩ := build_outline hl
  have hmem : ∀ j ∈ body, j ∈ l := fun j hj => hbody ▸ List.mem_append_left _ hj
  have hi' : i ∈ body := by
    rw [hbody] at hi
    rcases List.mem_append.mp hi with hi | hi
    · exact hi
    · rw [List.mem_singleton.mp hi] at hproper
      exact absurd rfl hproper.2
  have hinside : ∀ j ∈ body, ∀ i ∈ body, i.next ≤ j.addr ∨ j.next ≤ i.next := by
    intro j hj i hi
    obtain ⟨k, hk, haddr⟩ := hl.next_mem i (hmem i hi)
    rcases hl.not_inside j (hmem j hj) k hk with h | h <;> omega
  obtain ⟨b, hb, hexit⟩ := hent.exists_exit_eq hinside hi' hpos (by simp [hflow])
  obtain ⟨f', hending, hall⟩ := hent.drawn.closed b hb i.next hexit
  rw [← hall i hi' hproper rfl, hflow] at hending
  have hblock : b ∈ (build l).blocks.map Block.outline := by
    rw [hout]
    exact List.mem_append_left _ (hperm.mem_iff.mpr (List.mem_filter.mpr ⟨hb, by simp [hexit]⟩))
  obtain ⟨b', hb', rfl⟩ := List.mem_map.mp hblock
  exact ⟨b', hb', hending⟩

/-- The blocks that end in a jump lead to the goals of the jumps. -/
theorem mem_trueTargets_iff (hl : Bytecode.Placed stop 0 l) (goal : Nat) :
    goal ∈ ((build l).blocks.filter (·.kind == .jump)).filterMap (·.trueTarget) ↔
      ∃ i ∈ l, i.flow? = some (.jump goal) := by
  simp only [List.mem_filterMap, List.mem_filter, beq_iff_eq]
  constructor
  · rintro ⟨b, ⟨hb, hkind⟩, htarget⟩
    have hleft := leftBy_build l b hb
    unfold LeftBy at hleft
    rw [hkind] at hleft
    obtain ⟨i, hi, goal', hflow, -, hgoal⟩ := hleft
    obtain rfl := Option.some.inj (htarget.symm.trans hgoal)
    exact ⟨i, hi, hflow⟩
  · rintro ⟨i, hi, hflow⟩
    obtain ⟨b, hb, hending⟩ := exists_ending_of_flow hl hi hflow
    exact ⟨b, ⟨hb, congrArg Block.kind hending⟩, congrArg Block.trueTarget hending⟩

/-! ## Ends of blocks -/

/-- An instruction that ends a block has no other behind it in its block. -/
theorem exit_le_next (hl : Bytecode.Placed stop 0 l) {i : Instruction} (hi : i ∈ l)
    (hflow : i.flow? ≠ none) {b : Block} (hb : b ∈ (build l).blocks) {x : Nat}
    (hx : b.exit = some x) (hle : b.entry ≤ i.addr) :
    x ≤ i.next := by
  obtain ⟨f, hf⟩ := Option.ne_none_iff_exists'.mp hflow
  obtain ⟨b', hb', hending⟩ := exists_ending_of_flow hl hi hf
  have hx' : b'.exit = some i.next := (congrArg Block.exit hending).trans (Block.ending_exit ..)
  have hlen := hl.len_pos i hi (isProper_of_flow? hf)
  have hnext : i.next = i.addr + i.len := rfl
  have htiles := tiles_build hl
  rcases Nat.lt_trichotomy b.entry b'.entry with hlt | heq | hgt
  · -- the other block lies behind
    have hbehind := htiles.exit_le b hb b' hb' hlt x hx
    obtain ⟨y, hy, -, hbounds, -⟩ := htiles.bounds b' hb'
    rw [hx'] at hy
    obtain rfl := Option.some.inj hy
    omega
  · obtain rfl := htiles.entry_inj b hb b' hb' heq
    rw [hx'] at hx
    exact Nat.le_of_eq (Option.some.inj hx).symm
  · have hbehind := htiles.exit_le b' hb' b hb hgt i.next hx'
    omega

end Rio.BlockGraph
