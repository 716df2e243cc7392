import Rio.Proofs.BlockGraph.Tiling

/-!
# Who branches to a block

A block records the entries of the blocks that branch to it. An edge is recorded when the branch
is met, under the entry that the branching block has at that time; when that block is divided
later, the branch comes to stand in its second part, and the record has to follow it.
`build_decode_predecessors` says that in the finished graph the records are exact: a branch or
jump is recorded in a block as often as it leads there, nothing else is recorded but the way from
the first part of a divided block to its second, and every record names a block of the graph.

> `Recorded B source due`: the records of the blocks `B` are exact, once the block at `source` has
> also been recorded at the addresses `due`.

An instruction that branches closes its block with both edges due, and pays them one after the
other. Paying the second one may divide the branching block itself; the debt then passes to the
second part (`Recorded.divide`).
-/

namespace Rio

namespace Block

/-- How often a block may be recorded at an address: as often as it branches or jumps there; where
it just goes on, once or not at all. -/
def Explains (p : Block) (a n : Nat) : Prop :=
  match p.kind with
  | .conditional => n = [p.trueTarget, p.falseTarget].count (some a)
  | .jump => n = [p.trueTarget].count (some a)
  | .procedure | .leave => n = 0
  | .linear => n ≤ 1 ∧ (n ≠ 0 → p.exit = some a)

/-- Whether a way out of a block leads to an address. -/
def leadsTo (p : Block) (a : Nat) : Bool :=
  some a == p.trueTarget || some a == p.falseTarget

/-- A branch or a jump at the end of a block leads to an address. -/
def BranchesTo (p : Block) (a : Nat) : Prop :=
  (p.kind = .conditional ∧ p.leadsTo a = true) ∨ (p.kind = .jump ∧ p.trueTarget = some a)

instance (p : Block) (a : Nat) : Decidable (p.BranchesTo a) :=
  inferInstanceAs (Decidable (_ ∨ _))

/-- A block is recorded only where it leads. -/
theorem Explains.eq_zero {p : Block} {a n : Nat} (h : p.Explains a n) (hleads : p.leadsTo a = false)
    (hlinear : p.kind = .linear → p.trueTarget = p.exit) : n = 0 := by
  simp only [leadsTo, Bool.or_eq_false_iff, beq_eq_false_iff_ne] at hleads
  unfold Explains at h
  split at h
  · simpa [Ne.symm hleads.1, Ne.symm hleads.2] using h
  · simpa [Ne.symm hleads.1] using h
  · exact h
  · exact h
  · next hkind =>
    rcases Nat.eq_zero_or_pos n with hzero | hpos
    · exact hzero
    · have htarget := (hlinear hkind).trans (h.2 (Nat.ne_of_gt hpos))
      exact absurd htarget.symm hleads.1

/-- What a block explains does not depend on who branches to it. -/
theorem Explains.of_outline_eq {p q : Block} {a n : Nat} (h : p.Explains a n)
    (heq : q.outline = p.outline) : q.Explains a n := by
  have houtline : p.outline.Explains a n := h
  rw [← heq] at houtline
  exact houtline

/-- A block that is still open is recorded nowhere. -/
theorem Explains.eq_zero_of_open {p : Block} {a n : Nat} (h : p.Explains a n)
    (hopen : p.outline = opened p.entry) : n = 0 := by
  have houtline : p.outline.Explains a n := h
  rw [hopen] at houtline
  rcases Nat.eq_zero_or_pos n with hzero | hpos
  · exact hzero
  · cases houtline.2 (Nat.ne_of_gt hpos)

theorem isEmpty_eq_false {b : Block} {x : Nat} (hx : b.exit = some x) (hlt : b.entry < x) :
    b.isEmpty = false := by
  simp only [isEmpty, size, hx, beq_eq_false_iff_ne]
  omega

end Block

namespace Flow

/-- The addresses at which the block that an instruction ends is recorded. -/
def records (next : Nat) : Flow → List Nat
  | branch target => [next, target]
  | jump target => [target]
  | procedure _ | leave => []

theorem close_entry (f : Flow) (next : Nat) (b : Block) : (f.close next b).entry = b.entry := by
  cases f <;> rfl

theorem close_exit (f : Flow) (next : Nat) (b : Block) : (f.close next b).exit = some next := by
  cases f <;> rfl

theorem close_predecessors (f : Flow) (next : Nat) (b : Block) :
    (f.close next b).predecessors = b.predecessors := by
  cases f <;> rfl

/-- A block that an instruction has closed is to be recorded where the instruction leads. -/
theorem explains_close (f : Flow) (next : Nat) {b : Block} (h : b.outline = Block.opened b.entry)
    (a : Nat) : (f.close next b).Explains a ((f.records next).count a) := by
  obtain ⟨predecessors, hb⟩ := Block.of_outline_eq_opened h
  rw [hb]
  have hcount : ∀ x : Nat, (some x == some a) = (x == a) := fun _ => rfl
  cases f with
  | branch target =>
    show _ = _
    simp [close, records, List.count_cons, hcount]
  | jump target =>
    show _ = _
    simp [close, records, List.count_cons, hcount]
  | procedure names | leave => rfl

end Flow

namespace BlockGraph

/-! ## Records at an address -/

/-- The predecessors that are recorded at an address. -/
def predecessorsAt (B : List Block) (a : Nat) : List Nat :=
  (B.filter (·.entry == a)).flatMap (·.predecessors)

theorem predecessorsAt_append (B B' : List Block) (a : Nat) :
    predecessorsAt (B ++ B') a = predecessorsAt B a ++ predecessorsAt B' a := by
  unfold predecessorsAt
  rw [List.filter_append, List.flatMap_append]

theorem predecessorsAt_eq_nil {B : List Block} {a : Nat} (h : ∀ b ∈ B, b.entry ≠ a) :
    predecessorsAt B a = [] := by
  unfold predecessorsAt
  rw [List.filter_eq_nil_iff.mpr fun b hb he => h b hb (beq_iff_eq.mp he)]
  rfl

/-- Blocks that are changed one by one and keep their entries. -/
theorem predecessorsAt_map {B : List Block} {change : Block → Block}
    (hentry : ∀ b ∈ B, (change b).entry = b.entry) (a : Nat) :
    predecessorsAt (B.map change) a
      = (B.filter (·.entry == a)).flatMap fun b => (change b).predecessors := by
  unfold predecessorsAt
  rw [List.filter_map, List.flatMap_map]
  congr 1
  exact List.filter_congr fun b hb => congrArg (· == a) (hentry b hb)

theorem filter_entry_eq {B : List Block} (hnodup : (B.map (·.entry)).Nodup) {b : Block}
    (hb : b ∈ B) : B.filter (·.entry == b.entry) = [b] := by
  obtain ⟨xs, ys, rfl⟩ := List.append_of_mem hb
  rw [List.map_append, List.map_cons, List.nodup_append, List.nodup_cons] at hnodup
  obtain ⟨-, ⟨hys, -⟩, hxs⟩ := hnodup
  have hleft : xs.filter (·.entry == b.entry) = [] :=
    List.filter_eq_nil_iff.mpr fun c hc he =>
      hxs c.entry (List.mem_map_of_mem hc) b.entry (List.mem_cons_self ..) (beq_iff_eq.mp he)
  have hright : ys.filter (·.entry == b.entry) = [] :=
    List.filter_eq_nil_iff.mpr fun c hc he => hys (beq_iff_eq.mp he ▸ List.mem_map_of_mem hc)
  rw [List.filter_append, List.filter_cons_of_pos (by simp), hleft, hright]
  rfl

/-- Where no two blocks start together, the records at an entry are those of its block. -/
theorem predecessorsAt_entry {B : List Block} (hnodup : (B.map (·.entry)).Nodup) {b : Block}
    (hb : b ∈ B) : predecessorsAt B b.entry = b.predecessors := by
  unfold predecessorsAt
  rw [filter_entry_eq hnodup hb, List.flatMap_singleton]

/-! ## Moving records -/

/-- The entry that a record names after the block at `e` has been divided at `a`. -/
def moveTo (e a p : Nat) : Nat :=
  if p == e then a else p

theorem count_moveTo_of_ne {e a q : Nat} (he : q ≠ e) (ha : q ≠ a) (l : List Nat) :
    (l.map (moveTo e a)).count q = l.count q := by
  induction l with
  | nil => rfl
  | cons p l ih =>
    have hhead : (moveTo e a p == q) = (p == q) := by
      unfold moveTo
      by_cases hp : p = e
      · rw [if_pos (beq_iff_eq.mpr hp), hp, beq_eq_false_iff_ne.mpr (Ne.symm ha),
          beq_eq_false_iff_ne.mpr (Ne.symm he)]
      · rw [if_neg (fun h => hp (beq_iff_eq.mp h))]
    rw [List.map_cons, List.count_cons, List.count_cons, ih, hhead]

theorem count_moveTo_old {e a : Nat} (h : a ≠ e) (l : List Nat) :
    (l.map (moveTo e a)).count e = 0 := by
  rw [List.count_eq_zero]
  intro hmem
  obtain ⟨p, -, hp⟩ := List.mem_map.mp hmem
  unfold moveTo at hp
  split at hp
  · exact h hp
  · next hne => exact hne (beq_iff_eq.mpr hp)

/-- The records of the divided block now name its second part. -/
theorem count_moveTo_new {e a : Nat} (l : List Nat) (hfresh : a ∉ l) :
    (l.map (moveTo e a)).count a = l.count e := by
  induction l with
  | nil => rfl
  | cons p l ih =>
    rw [List.mem_cons, not_or] at hfresh
    have hhead : (moveTo e a p == a) = (p == e) := by
      unfold moveTo
      by_cases hp : p = e
      · simp [hp]
      · rw [if_neg (fun h => hp (beq_iff_eq.mp h)), beq_eq_false_iff_ne.mpr (Ne.symm hfresh.1),
          beq_eq_false_iff_ne.mpr hp]
    rw [List.map_cons, List.count_cons, List.count_cons, ih hfresh.2, hhead]

/-! ## The invariant -/

/-- Whether a block that holds something starts at an address. -/
def Holds (B : List Block) (e : Nat) : Prop :=
  ∃ p ∈ B, p.entry = e ∧ p.isEmpty = false

/-- How often the block at `p` has still to be recorded at an address. -/
def owing (source : Nat) (due : List Nat) (p a : Nat) : Nat :=
  if p = source then due.count a else 0

/-- The records are exact but for the block at `source`, which has still to be recorded at the
addresses `due`. -/
structure Recorded (B : List Block) (source : Nat) (due : List Nat) : Prop where
  exact : ∀ p ∈ B, ∀ a,
    p.Explains a ((predecessorsAt B a).count p.entry + owing source due p.entry a)
  known : ∀ a, ∀ e ∈ predecessorsAt B a, Holds B e

namespace Recorded

variable {d : Draft} {source : Nat} {due : List Nat}

/-- What is due to no address is due from no block. -/
theorem settled (h : Recorded d.blocks source []) (source' : Nat) :
    Recorded d.blocks source' [] :=
  ⟨fun p hp a => by simpa [owing] using h.exact p hp a, h.known⟩

/-- Nothing is recorded under an entry that no block has. -/
theorem notMem {B : List Block} (h : Recorded B source due) {a : Nat} (ha : ∀ b ∈ B, b.entry ≠ a)
    (x : Nat) : a ∉ predecessorsAt B x := by
  intro hmem
  obtain ⟨p, hp, he, -⟩ := h.known x a hmem
  exact ha p hp he

/-! ### Opening a block -/

/-- A block that has just been found branches nowhere, and nobody is recorded in it. -/
theorem opened (h : Recorded d.blocks source due) {addr : Nat}
    (hnew : ∀ b ∈ d.blocks, b.entry ≠ addr) (hsource : source ≠ addr) :
    Recorded (d.blocks ++ [Block.opened addr]) source due := by
  have hsame : ∀ a, predecessorsAt (d.blocks ++ [Block.opened addr]) a
      = predecessorsAt d.blocks a := by
    intro a
    have hnone : predecessorsAt [Block.opened addr] a = [] := by
      unfold predecessorsAt
      rw [List.flatMap_eq_nil_iff]
      intro b hb
      rw [List.mem_singleton.mp (List.mem_filter.mp hb).1]
      rfl
    rw [predecessorsAt_append, hnone, List.append_nil]
  constructor
  · intro p hp a
    rw [hsame]
    rcases List.mem_append.mp hp with hp | hp
    · exact h.exact p hp a
    · obtain rfl := List.mem_singleton.mp hp
      have hzero : (predecessorsAt d.blocks a).count addr = 0 :=
        List.count_eq_zero.mpr (h.notMem hnew a)
      show _ ≤ 1 ∧ _
      simp [owing, Block.opened, hzero, Ne.symm hsource]
  · intro a e he
    rw [hsame] at he
    obtain ⟨p, hp, hfacts⟩ := h.known a e he
    exact ⟨p, List.mem_append_left _ hp, hfacts⟩

/-! ### Recording an edge -/

/-- Recording an edge that is due. -/
theorem link (h : Recorded d.blocks source (addr :: due)) (hnodup : (d.blocks.map (·.entry)).Nodup)
    (hhas : ∃ b ∈ d.blocks, b.entry = addr)
    (hsource : Holds d.blocks source) :
    Recorded (d.link addr (some source)).blocks source due := by
  -- the record is appended at the address and nowhere else
  have hrecords : ∀ a, predecessorsAt (d.link addr (some source)).blocks a
      = predecessorsAt d.blocks a ++ if a = addr then [source] else [] := by
    intro a
    have hentry : ∀ b ∈ d.blocks, (if b.entry == addr then
        { b with predecessors := b.predecessors ++ [source] } else b).entry = b.entry := by
      intro b _
      split <;> rfl
    show predecessorsAt (d.blocks.map _) a = _
    rw [predecessorsAt_map hentry]
    by_cases ha : a = addr
    · subst ha
      obtain ⟨b, hb, rfl⟩ := hhas
      rw [predecessorsAt_entry hnodup hb, filter_entry_eq hnodup hb, List.flatMap_singleton]
      simp
    · rw [if_neg ha, List.append_nil]
      unfold predecessorsAt List.flatMap
      refine congrArg List.flatten (List.map_congr_left fun b hb => ?_)
      have hb' : b.entry = a := beq_iff_eq.mp (List.mem_filter.mp hb).2
      rw [if_neg (by simpa [hb'] using ha)]
  have hblocks : ∀ p ∈ (d.link addr (some source)).blocks, ∃ q ∈ d.blocks,
      p.outline = q.outline := by
    intro p hp
    obtain ⟨q, hq, rfl⟩ := List.mem_map.mp hp
    refine ⟨q, hq, ?_⟩
    split <;> rfl
  have hback : ∀ q ∈ d.blocks, ∃ p ∈ (d.link addr (some source)).blocks,
      p.outline = q.outline := by
    intro q hq
    refine ⟨_, List.mem_map_of_mem hq, ?_⟩
    split <;> rfl
  constructor
  · intro p hp a
    obtain ⟨q, hq, hpq⟩ := hblocks p hp
    have hentry : p.outline.entry = q.outline.entry := congrArg Block.entry hpq
    rw [Block.outline_entry, Block.outline_entry] at hentry
    have hcount : (predecessorsAt (d.link addr (some source)).blocks a).count p.entry
          + owing source due p.entry a
        = (predecessorsAt d.blocks a).count q.entry + owing source (addr :: due) q.entry a := by
      rw [hrecords, List.count_append, hentry]
      unfold owing
      by_cases hs : q.entry = source
      · by_cases ha : a = addr
        · simp [hs, ha]
          omega
        · simp [hs, ha, Ne.symm ha]
      · by_cases ha : a = addr
        · simp [hs, ha, Ne.symm hs]
        · simp [hs, ha]
    rw [hcount]
    exact (h.exact q hq a).of_outline_eq hpq
  · intro a e he
    have hold : Holds d.blocks e := by
      rw [hrecords, List.mem_append] at he
      rcases he with he | he
      · exact h.known a e he
      · split at he
        · rw [List.mem_singleton.mp he]
          exact hsource
        · cases he
    obtain ⟨q, hq, hqe, hfull⟩ := hold
    obtain ⟨p, hp, hpq⟩ := hback q hq
    have hempty : p.isEmpty = q.isEmpty := by
      have houtline : ∀ b : Block, b.isEmpty = b.outline.isEmpty := fun _ => rfl
      rw [houtline, hpq, ← houtline]
    have hentry : p.outline.entry = q.outline.entry := congrArg Block.entry hpq
    exact ⟨p, hp, hentry.trans hqe, hempty.trans hfull⟩

/-! ### Dividing a block -/

/-- What becomes of a block when `head` is divided: `head` itself is shortened, and records that
name it follow its way out. -/
def part (head : Block) (addr : Nat) (b : Block) : Block :=
  { if b.entry == head.entry then b.shorten addr else b with
    predecessors :=
      if head.leadsTo b.entry then b.predecessors.map (moveTo head.entry addr) else b.predecessors }

theorem part_entry (head : Block) (addr : Nat) (b : Block) :
    (part head addr b).entry = b.entry := by
  unfold part
  dsimp only
  split <;> rfl

theorem divide_blocks (d : Draft) (head : Block) (addr : Nat) :
    (d.divide head addr).blocks
      = d.blocks.map (part head addr)
        ++ [{ head with entry := addr, predecessors := [head.entry] }] := by
  unfold Draft.divide Draft.update Draft.report
  dsimp only
  rw [List.map_map]
  congr 1
  refine List.map_congr_left fun b _ => ?_
  rw [Function.comp_apply]
  unfold part
  by_cases he : b.entry = head.entry
  · have hhead : (b.entry == head.entry) = true := beq_iff_eq.mpr he
    rw [if_pos hhead, if_pos hhead]
    unfold Block.leadsTo
    split <;> rfl
  · have hother : ¬(b.entry == head.entry) = true := fun h => he (beq_iff_eq.mp h)
    rw [if_neg hother, if_neg hother]
    unfold Block.leadsTo
    split <;> rfl

/-- The records after a block has been divided where none started. -/
theorem predecessorsAt_divide {head : Block} {addr : Nat} (hnew : ∀ b ∈ d.blocks, b.entry ≠ addr)
    (a : Nat) :
    predecessorsAt (d.divide head addr).blocks a
      = if a = addr then [head.entry]
        else if head.leadsTo a then (predecessorsAt d.blocks a).map (moveTo head.entry addr)
        else predecessorsAt d.blocks a := by
  rw [divide_blocks, predecessorsAt_append, predecessorsAt_map fun b _ => part_entry head addr b]
  by_cases ha : a = addr
  · have hnone : d.blocks.filter (·.entry == a) = [] :=
      List.filter_eq_nil_iff.mpr fun b hb he => hnew b hb (ha ▸ beq_iff_eq.mp he)
    rw [if_pos ha, hnone, ha]
    simp [predecessorsAt]
  · have hnone :
        predecessorsAt [{ head with entry := addr, predecessors := [head.entry] }] a = [] :=
      predecessorsAt_eq_nil fun b hb => by
        rw [List.mem_singleton.mp hb]
        exact Ne.symm ha
    have hparts : (d.blocks.filter (·.entry == a)).flatMap
        (fun b => (part head addr b).predecessors)
        = (d.blocks.filter (·.entry == a)).flatMap fun b =>
            if head.leadsTo a then b.predecessors.map (moveTo head.entry addr)
            else b.predecessors := by
      unfold List.flatMap
      refine congrArg List.flatten (List.map_congr_left fun b hb => ?_)
      rw [← beq_iff_eq.mp (List.mem_filter.mp hb).2]
      rfl
    rw [if_neg ha, hnone, List.append_nil, hparts]
    split
    · rw [predecessorsAt, List.map_flatMap]
    · rfl

/-- Debts pass from a divided block to its second part. -/
theorem owing_moveTo {e addr p : Nat} (hp : p ≠ e) (hp' : p ≠ addr) (source : Nat) (due : List Nat)
    (a : Nat) : owing (moveTo e addr source) due p a = owing source due p a := by
  unfold owing moveTo
  by_cases hs : source = e
  · simp [hs, hp, hp']
  · simp [hs]

theorem owing_moveTo_old {e addr : Nat} (h : e ≠ addr) (source : Nat) (due : List Nat) (a : Nat) :
    owing (moveTo e addr source) due e a = 0 := by
  unfold owing moveTo
  by_cases hs : source = e
  · simp [hs, h]
  · simp [hs, Ne.symm hs]

theorem owing_moveTo_new {e addr source : Nat} (h : source ≠ addr) (due : List Nat) (a : Nat) :
    owing (moveTo e addr source) due addr a = owing source due e a := by
  unfold owing moveTo
  by_cases hs : source = e
  · simp [hs]
  · simp [hs, Ne.symm hs, Ne.symm h]

/-- Both parts of a divided block hold something, and so does whatever did before. -/
theorem holds_divide {head : Block} {addr x : Nat} (hx : head.exit = some x)
    (hlo : head.entry < addr) (hhi : addr < x) :
    Holds (d.divide head addr).blocks addr ∧
      ∀ e, Holds d.blocks e → Holds (d.divide head addr).blocks e := by
  unfold Holds
  rw [divide_blocks]
  constructor
  · refine ⟨{ head with entry := addr, predecessors := [head.entry] }, ?_, rfl, ?_⟩
    · exact List.mem_append_right _ (List.mem_singleton.mpr rfl)
    · exact Block.isEmpty_eq_false (x := x) hx hhi
  · rintro e ⟨b, hb, rfl, hfull⟩
    refine ⟨part head addr b, List.mem_append_left _ (List.mem_map_of_mem hb), part_entry .., ?_⟩
    by_cases hbe : b.entry = head.entry
    · refine Block.isEmpty_eq_false (x := addr) ?_ (by rw [part_entry, hbe]; exact hlo)
      unfold part
      rw [if_pos (beq_iff_eq.mpr hbe)]
      rfl
    · unfold part
      rw [if_neg (fun heq => hbe (beq_iff_eq.mp heq))]
      exact hfull

/-- The first part of a divided block goes on with the second, and is recorded there only. -/
theorem explains_first {head b : Block} {addr : Nat} (hne : addr ≠ head.entry)
    (hnew : ∀ b ∈ d.blocks, b.entry ≠ addr) (hbe : b.entry = head.entry) (a : Nat)
    (hunled : head.leadsTo a = false → (predecessorsAt d.blocks a).count head.entry = 0) :
    (part head addr b).Explains a ((predecessorsAt (d.divide head addr).blocks a).count b.entry
      + owing (moveTo head.entry addr source) due b.entry a) := by
  have hfirst : (part head addr b).kind = .linear ∧ (part head addr b).exit = some addr := by
    unfold part
    rw [if_pos (beq_iff_eq.mpr hbe)]
    exact ⟨rfl, rfl⟩
  rw [predecessorsAt_divide hnew, hbe, owing_moveTo_old (Ne.symm hne), Nat.add_zero]
  unfold Block.Explains
  rw [hfirst.1, hfirst.2]
  by_cases ha : a = addr
  · rw [if_pos ha, ha]
    exact ⟨by simp, fun _ => rfl⟩
  · rw [if_neg ha]
    have hzero : (if head.leadsTo a then (predecessorsAt d.blocks a).map (moveTo head.entry addr)
        else predecessorsAt d.blocks a).count head.entry = 0 := by
      cases hleads : head.leadsTo a with
      | true => exact count_moveTo_old hne _
      | false => exact hunled hleads
    rw [hzero]
    exact ⟨Nat.zero_le _, fun hcontra => absurd rfl hcontra⟩

/-- Blocks that are not divided are recorded where they were. -/
theorem explains_other (h : Recorded d.blocks source due) {head b : Block} {addr : Nat}
    (hnew : ∀ b ∈ d.blocks, b.entry ≠ addr) (hb : b ∈ d.blocks) (hbe : b.entry ≠ head.entry)
    (a : Nat) :
    (part head addr b).Explains a ((predecessorsAt (d.divide head addr).blocks a).count b.entry
      + owing (moveTo head.entry addr source) due b.entry a) := by
  have hsame : (part head addr b).outline = b.outline := by
    unfold part
    rw [if_neg (fun heq => hbe (beq_iff_eq.mp heq))]
    rfl
  refine Block.Explains.of_outline_eq ?_ hsame
  rw [predecessorsAt_divide hnew, owing_moveTo hbe (hnew b hb)]
  have hold := h.exact b hb a
  by_cases ha : a = addr
  · subst ha
    rw [predecessorsAt_eq_nil hnew] at hold
    rw [if_pos rfl, List.count_singleton, beq_eq_false_iff_ne.mpr (Ne.symm hbe)]
    exact hold
  · rw [if_neg ha]
    split
    · rw [count_moveTo_of_ne hbe (hnew b hb)]
      exact hold
    · exact hold

/-- The second part of a divided block is recorded where the whole block was. -/
theorem explains_second (h : Recorded d.blocks source due) {head : Block} (hhead : head ∈ d.blocks)
    {addr : Nat} (hne : addr ≠ head.entry) (hnew : ∀ b ∈ d.blocks, b.entry ≠ addr)
    (hsource : source ≠ addr) (a : Nat)
    (hunled : head.leadsTo a = false →
      (predecessorsAt d.blocks a).count head.entry + owing source due head.entry a = 0) :
    head.Explains a ((predecessorsAt (d.divide head addr).blocks a).count addr
      + owing (moveTo head.entry addr source) due addr a) := by
  rw [predecessorsAt_divide hnew, owing_moveTo_new hsource]
  have hold := h.exact head hhead a
  by_cases ha : a = addr
  · subst ha
    rw [predecessorsAt_eq_nil hnew] at hold
    rw [if_pos rfl, List.count_singleton, beq_eq_false_iff_ne.mpr (Ne.symm hne)]
    exact hold
  · rw [if_neg ha]
    cases hleads : head.leadsTo a with
    | true =>
      rw [if_pos rfl, count_moveTo_new _ (h.notMem hnew a)]
      exact hold
    | false =>
      rw [if_neg (by simp), List.count_eq_zero.mpr (h.notMem hnew a)]
      have hzero := hunled hleads
      rw [hzero] at hold
      rw [Nat.eq_zero_of_add_eq_zero_left hzero]
      exact hold

/-- The records stay exact when a block is divided, and its debts pass to the second part. -/
theorem divide (h : Recorded d.blocks source due) {head : Block} (hhead : head ∈ d.blocks)
    {addr x : Nat} (hx : head.exit = some x) (hlo : head.entry < addr) (hhi : addr < x)
    (hnew : ∀ b ∈ d.blocks, b.entry ≠ addr)
    (hlinear : head.kind = .linear → head.trueTarget = head.exit) (hsource : source ≠ addr) :
    Recorded (d.divide head addr).blocks (moveTo head.entry addr source) due := by
  have hne : addr ≠ head.entry := Nat.ne_of_gt hlo
  -- where the divided block does not lead, it is not recorded
  have hunled : ∀ a, head.leadsTo a = false →
      (predecessorsAt d.blocks a).count head.entry + owing source due head.entry a = 0 :=
    fun a hleads => (h.exact head hhead a).eq_zero hleads hlinear
  constructor
  · intro p hp a
    rw [divide_blocks, List.mem_append, List.mem_singleton] at hp
    rcases hp with hp | rfl
    · obtain ⟨b, hb, rfl⟩ := List.mem_map.mp hp
      rw [part_entry]
      by_cases hbe : b.entry = head.entry
      · exact explains_first hne hnew hbe a fun hleads =>
          Nat.eq_zero_of_add_eq_zero_right (hunled a hleads)
      · exact h.explains_other hnew hb hbe a
    · exact h.explains_second hhead hne hnew hsource a (hunled a)
  · obtain ⟨hsecond, hstill⟩ := holds_divide (d := d) hx hlo hhi
    intro a e he
    rw [predecessorsAt_divide hnew] at he
    split at he
    · rw [List.mem_singleton.mp he]
      exact hstill _ ⟨head, hhead, rfl, Block.isEmpty_eq_false hx (Nat.lt_trans hlo hhi)⟩
    · split at he
      · obtain ⟨e', he', rfl⟩ := List.mem_map.mp he
        unfold moveTo
        split
        · exact hsecond
        · exact hstill e' (h.known a e' he')
      · exact hstill e (h.known a e he)

/-! ### Seeing to a block -/

/-- A closed block that just goes on leads to where it ends. -/
theorem trueTarget_eq_exit {done : List Instruction} {top cursor x : Nat} {L : Nat → Prop}
    {b : Block} (hdrawn : Drawn done top cursor L d.outline) (hb : b ∈ d.blocks)
    (hx : b.exit = some x) (hkind : b.kind = .linear) : b.trueTarget = b.exit := by
  obtain ⟨f, hending, -⟩ := hdrawn.closed b.outline (List.mem_map_of_mem hb) x hx
  have hkind' : b.outline.kind = .linear := hkind
  show b.outline.trueTarget = b.outline.exit
  rw [hending] at hkind' ⊢
  cases f with
  | none => rfl
  | some flow => cases flow <;> cases hkind'

/-- Where a draft stands once a block starts at an address and before an edge is recorded there. A
record that names a divided block has moved on to its second part. -/
theorem exists_define {done : List Instruction} {top cursor : Nat} {L : Nat → Prop}
    (h : Recorded d.blocks source due) (hdrawn : Drawn done top cursor L d.outline)
    (hsource : Holds d.blocks source) (addr : Nat) :
    ∃ d' : Draft, ∃ move : Nat → Nat,
      (∀ predecessor, d.define addr predecessor = d'.link addr (predecessor.map move)) ∧
        Recorded d'.blocks (move source) due ∧ Holds d'.blocks (move source) ∧
        (d'.blocks.map (·.entry)).Nodup ∧ (∃ b ∈ d'.blocks, b.entry = addr) ∧
        ((∀ b ∈ d.blocks, b.contains addr = false) → move = id) := by
  have hentries : d.outline.map (·.entry) = d.blocks.map (·.entry) := List.map_map
  have hnodup : (d.blocks.map (·.entry)).Nodup := hentries ▸ hdrawn.nodup
  -- three cases: the block is there, it is new, or it is cut off the end of another one
  by_cases hhas : d.has addr = true
  · refine ⟨d, id, fun predecessor => ?_, h, hsource, hnodup, ?_, fun _ => rfl⟩
    · rw [Draft.define, if_pos hhas, Option.map_id]
      rfl
    · obtain ⟨b, hb, he⟩ := List.any_eq_true.mp hhas
      exact ⟨b, hb, beq_iff_eq.mp he⟩
  · have hnew : ∀ b ∈ d.blocks, b.entry ≠ addr := fun b hb he =>
      hhas (List.any_eq_true.mpr ⟨b, hb, beq_iff_eq.mpr he⟩)
    have hne : source ≠ addr := by
      obtain ⟨p, hp, rfl, -⟩ := hsource
      exact hnew p hp
    have hfresh : (d.blocks.map (·.entry) ++ [addr]).Nodup := by
      rw [List.nodup_append]
      refine ⟨hnodup, by simp, fun x hx y hy hxy => ?_⟩
      obtain ⟨b, hb, rfl⟩ := List.mem_map.mp hx
      exact hnew b hb (hxy.trans (List.mem_singleton.mp hy))
    cases hfind : d.blocks.find? (·.contains addr) with
    | none =>
      refine ⟨{ d with blocks := d.blocks ++ [Block.opened addr] }, id, fun predecessor => ?_,
        h.opened hnew hne, ?_, ?_, ⟨Block.opened addr, ?_, rfl⟩, fun _ => rfl⟩
      · rw [Draft.define, if_neg hhas, hfind, Option.map_id]
        rfl
      · obtain ⟨p, hp, hfacts⟩ := hsource
        exact ⟨p, List.mem_append_left _ hp, hfacts⟩
      · rw [List.map_append]
        exact hfresh
      · exact List.mem_append_right _ (List.mem_singleton.mpr rfl)
    | some head =>
      have hhead : head ∈ d.blocks := List.mem_of_find?_eq_some hfind
      have hcontains : head.contains addr = true :=
        List.find?_some (p := fun b : Block => b.contains addr) hfind
      obtain ⟨x, hx⟩ : ∃ x, head.exit = some x := by
        cases hx : head.exit with
        | none => simp [Block.contains, hx] at hcontains
        | some x => exact ⟨x, rfl⟩
      obtain ⟨hle, hhi⟩ := (contains_iff hx).mp hcontains
      have hlo : head.entry < addr := Nat.lt_of_le_of_ne hle (hnew head hhead)
      obtain ⟨hsecond, hstill⟩ := holds_divide (d := d) hx hlo hhi
      refine ⟨d.divide head addr, moveTo head.entry addr, fun predecessor => ?_,
        h.divide hhead hx hlo hhi hnew (trueTarget_eq_exit hdrawn hhead hx) hne, ?_, ?_, ?_,
          fun hnone => ?_⟩
      · rw [Draft.define, if_neg hhas, hfind]
        rfl
      -- whoever comes from the block that was cut now comes from its second part
      · unfold moveTo
        split
        · exact hsecond
        · exact hstill source hsource
      · have hmap : (d.blocks.map (part head addr)).map (·.entry) = d.blocks.map (·.entry) := by
          rw [List.map_map]
          exact List.map_congr_left fun b _ => part_entry head addr b
        rw [divide_blocks, List.map_append, hmap]
        exact hfresh
      · obtain ⟨p, hp, he, -⟩ := hsecond
        exact ⟨p, hp, he⟩
      · rw [hnone head hhead] at hcontains
        cases hcontains

/-- Seeing to a block that an edge is due at pays the edge. -/
theorem define {done : List Instruction} {top cursor addr : Nat} {L : Nat → Prop}
    (h : Recorded d.blocks source (addr :: due)) (hdrawn : Drawn done top cursor L d.outline)
    (hsource : Holds d.blocks source) :
    ∃ source', Recorded (d.define addr (some source)).blocks source' due ∧
      Holds (d.define addr (some source)).blocks source' ∧
      ((∀ b ∈ d.blocks, b.contains addr = false) → source' = source) := by
  obtain ⟨d', move, hdefine, hrecorded, hholds, hnodup, hat, hid⟩ :=
    h.exists_define hdrawn hsource addr
  refine ⟨move source, ?_, ?_, fun hnone => by rw [hid hnone, id]⟩
  · rw [hdefine]
    exact hrecorded.link hnodup hat hholds
  · rw [hdefine]
    obtain ⟨p, hp, hpe, hfull⟩ := hholds
    refine ⟨_, List.mem_map_of_mem hp, ?_⟩
    split
    · exact ⟨hpe, hfull⟩
    · exact ⟨hpe, hfull⟩

/-- Where nothing is due, seeing to a block keeps it so. -/
theorem define_none {done : List Instruction} {top cursor : Nat} {L : Nat → Prop}
    (h : Recorded d.blocks source []) (hdrawn : Drawn done top cursor L d.outline)
    (hsource : Holds d.blocks source) (addr : Nat) :
    Recorded (d.define addr none).blocks source [] := by
  obtain ⟨d', move, hdefine, hrecorded, -⟩ := h.exists_define hdrawn hsource addr
  rw [hdefine]
  exact hrecorded.settled source

/-! ### Closing a block -/

/-- Changes to the block at `current` that add ways out leave the edges there due. -/
theorem update {current : Nat} (h : Recorded d.blocks source []) {change : Block → Block}
    (hentry : ∀ b, (change b).entry = b.entry)
    (hpredecessors : ∀ b, (change b).predecessors = b.predecessors)
    (hexplains : ∀ b ∈ d.blocks, b.entry = current → ∀ a n, b.Explains a n →
      (change b).Explains a (n + due.count a))
    (hfull : ∀ b ∈ d.blocks, b.entry = current → b.isEmpty = false → (change b).isEmpty = false) :
    Recorded (d.update current change).blocks current due := by
  -- records are kept in the blocks that are entered, and those are not the one that changes
  have hsame : ∀ a, predecessorsAt (d.update current change).blocks a
      = predecessorsAt d.blocks a := by
    intro a
    show predecessorsAt (d.blocks.map _) a = _
    rw [predecessorsAt_map]
    · unfold predecessorsAt List.flatMap
      refine congrArg List.flatten (List.map_congr_left fun b _ => ?_)
      split
      · exact hpredecessors b
      · rfl
    · intro b _
      split
      · exact hentry b
      · rfl
  constructor
  · intro p hp a
    rw [hsame]
    obtain ⟨b, hb, rfl⟩ := List.mem_map.mp hp
    have hold : b.Explains a ((predecessorsAt d.blocks a).count b.entry) := by
      simpa [owing] using h.exact b hb a
    by_cases hbe : b.entry = current
    · rw [if_pos (beq_iff_eq.mpr hbe), hentry, owing, if_pos hbe]
      exact hexplains b hb hbe a _ hold
    · rw [if_neg (fun heq => hbe (beq_iff_eq.mp heq)), owing, if_neg hbe]
      exact hold
  · intro a e he
    rw [hsame] at he
    obtain ⟨b, hb, rfl, hbfull⟩ := h.known a e he
    refine ⟨_, List.mem_map_of_mem hb, ?_⟩
    by_cases hbe : b.entry = current
    · rw [if_pos (beq_iff_eq.mpr hbe)]
      exact ⟨hentry b, hfull b hb hbe hbfull⟩
    · rw [if_neg (fun heq => hbe (beq_iff_eq.mp heq))]
      exact ⟨rfl, hbfull⟩

/-- Reaching another block closes an open one, which leads nowhere else. -/
theorem enter {done : List Instruction} {top cursor : Nat} {L : Nat → Prop}
    (h : Recorded d.blocks source []) (hdrawn : Drawn done top cursor L d.outline)
    (current addr : Nat) : Recorded (d.enter current addr).1.blocks current [] := by
  unfold Draft.enter
  split
  · refine h.update ?_ ?_ ?_ ?_
    · intro b
      split <;> rfl
    · intro b
      split <;> rfl
    · intro b hb _ a n hold
      rw [List.count_nil, Nat.add_zero]
      split
      · next hnone =>
        have hexit : b.exit = none := by simpa using hnone
        have hopen := hdrawn.opened b.outline (List.mem_map_of_mem hb) hexit
        have hkind : b.outline.kind = .linear := by rw [hopen]; rfl
        -- an open block has no edges yet, so closing it owes none
        rw [hold.eq_zero_of_open hopen]
        unfold Block.Explains
        rw [show b.kind = .linear from hkind]
        exact ⟨Nat.zero_le _, fun hcontra => absurd rfl hcontra⟩
      · exact hold
    · intro b _ _ hfull
      split
      · next hnone =>
        have hexit : b.exit = none := by simpa using hnone
        simp [Block.isEmpty, Block.size, hexit] at hfull
      · exact hfull
  · exact h.settled current

end Recorded

/-! ## One instruction -/

namespace Recorded

variable {d : Draft} {source current : Nat} {i : Instruction} {done : List Instruction}

/-- An instruction that ends a block records it wherever it leads. -/
theorem leave_of_flow {f : Flow} (h : Recorded d.blocks source [])
    (hent : Entered done i.addr d.outline current) (hlen : i.IsProper → 0 < i.len)
    (hf : i.flow? = some f) : ∃ source', Recorded (d.leave current i).blocks source' [] := by
  have hopen : ∀ b ∈ d.blocks, b.entry = current → b.outline = Block.opened b.entry :=
    fun b hb he => he ▸ Draft.outline_eq_opened hent.drawn b hb he
  rw [Draft.leave_eq_connect hf]
  -- first the present block is closed, and all its edges are due
  have hclosed : Recorded (d.update current (f.close i.next)).blocks current
      (f.records i.next) := by
    refine h.update (f.close_entry i.next) (f.close_predecessors i.next) ?_ ?_
    · intro b hb he a n hold
      rw [hold.eq_zero_of_open (hopen b hb he), Nat.zero_add]
      exact f.explains_close i.next (hopen b hb he) a
    · intro b hb he _
      refine Block.isEmpty_eq_false (f.close_exit i.next b) ?_
      rw [f.close_entry, he]
      exact Draft.current_lt_next hent hlen hf
  have hdrawn : Drawn (done ++ [i]) i.next i.next (IsLeader done)
      (d.update current (f.close i.next)).outline := by
    rw [Draft.outline_close f i.next (Draft.outline_eq_opened hent.drawn)]
    exact Draft.close_drawn_of_flow hent hlen hf
  have hholds : Holds (d.update current (f.close i.next)).blocks current := by
    obtain ⟨b, hb, he⟩ := List.mem_map.mp ((hent.drawn.entries current).mpr hent.leader)
    obtain ⟨b, hb', rfl⟩ := List.mem_map.mp hb
    rw [Block.outline_entry] at he
    refine ⟨_, List.mem_map_of_mem hb', ?_⟩
    rw [if_pos (beq_iff_eq.mpr he), f.close_entry]
    refine ⟨he, Block.isEmpty_eq_false (f.close_exit i.next b) ?_⟩
    rw [f.close_entry]
    exact he ▸ Draft.current_lt_next hent hlen hf
  -- no closed block goes on behind the instruction
  have hbehind : ∀ b ∈ (d.update current (f.close i.next)).blocks, b.contains i.next = false := by
    intro b hb
    cases hx : b.exit with
    | none => simp [Block.contains, hx]
    | some x =>
      have hbound := (hdrawn.bounds (List.mem_map_of_mem hb) hx).2
      rw [← Bool.not_eq_true, contains_iff hx]
      omega
  generalize d.update current (f.close i.next) = closed at hclosed hdrawn hholds hbehind
  cases f with
  | branch target =>
    obtain ⟨source', hnext, hholds', hsame⟩ := hclosed.define hdrawn hholds
    rw [hsame hbehind] at hnext hholds'
    have hdrawn' := Draft.define_outline closed i.next (some current) ▸ hdrawn.define i.next
    obtain ⟨source', htarget, -⟩ := hnext.define hdrawn' hholds'
    exact ⟨source', htarget⟩
  | jump target =>
    obtain ⟨source', htarget, hholds', -⟩ := hclosed.define hdrawn hholds
    have hdrawn' := Draft.define_outline closed target (some current) ▸ hdrawn.define target
    exact ⟨source', htarget.define_none hdrawn' hholds' i.next⟩
  | procedure names => exact ⟨current, hclosed.define_none hdrawn hholds i.next⟩
  | leave => exact ⟨current, hclosed.define_none hdrawn hholds i.next⟩

/-- The end of the script closes the present block, which leads nowhere. -/
theorem leave_end (h : Recorded d.blocks source []) {addr : Nat}
    (hopen : ∀ b ∈ d.blocks, b.entry = current → b.outline = Block.opened current) :
    Recorded (d.leave current (.marker addr .endOfStream)).blocks current [] := by
  have hopened : ∀ b ∈ d.blocks, b.entry = current → b.outline = Block.opened b.entry :=
    fun b hb he => he ▸ hopen b hb he
  refine h.update (fun b => by split <;> rfl) (fun b => by split <;> rfl) ?_ ?_
  · intro b hb he a n hold
    rw [hold.eq_zero_of_open (hopened b hb he)]
    obtain ⟨predecessors, hb'⟩ := Block.of_outline_eq_opened (hopened b hb he)
    rw [hb']
    exact ⟨Nat.zero_le _, fun hcontra => absurd rfl hcontra⟩
  · intro b hb he hfull
    obtain ⟨predecessors, hb'⟩ := Block.of_outline_eq_opened (hopened b hb he)
    rw [hb'] at hfull
    cases hfull

/-- Going through the instructions keeps the records exact. -/
theorem foldl_step {stop cursor : Nat} {l : List Instruction} (hl : Bytecode.Placed stop cursor l)
    (hrest : Resting done cursor d.outline current) (h : Recorded d.blocks source []) :
    ∃ source', Recorded (l.foldl Draft.step (d, current)).1.blocks source' [] := by
  have henter : ∀ {done : List Instruction} {cursor : Nat} {d : Draft} {current source : Nat},
      Resting done cursor d.outline current → Recorded d.blocks source [] →
        ∀ addr, Recorded (d.enter current addr).1.blocks current [] := by
    rintro done cursor d current source ⟨-, ⟨hdrawn, -⟩ | ⟨hdrawn, -⟩⟩ h addr
    · exact h.enter hdrawn current addr
    · exact h.enter hdrawn current addr
  -- the induction follows the placing of the instructions; what is due is paid after each one
  induction hl generalizing done d current source with
  | last =>
    have hent := Draft.enter_entered hrest
    exact ⟨_, (henter hrest h stop).leave_end (Draft.outline_eq_opened hent.drawn)⟩
  | @proper i rest hproper hpos _ ih =>
    have hent := Draft.enter_entered hrest
    have hnext := Draft.leave_resting hent (fun _ => hpos) hproper.2
    have hrecorded := henter hrest h i.addr
    cases hf : i.flow? with
    | some f =>
      obtain ⟨source', hleft⟩ := hrecorded.leave_of_flow hent (fun _ => hpos) hf
      exact ih hnext hleft
    | none =>
      rw [← Draft.leave_blocks_of_none hf hproper.2] at hrecorded
      exact ih hnext hrecorded
  | @unterminated i rest hproper _ ih =>
    have hent := Draft.enter_entered hrest
    have hmark : ¬(Instruction.marker i.addr .notTerminated).IsProper := fun hp => hp.1 rfl
    have hnext := Draft.leave_resting (i := .marker i.addr .notTerminated) hent
      (fun hp => absurd hp hmark) (by simp [Instruction.marker])
    have hrecorded := henter hrest h i.addr
    rw [← Draft.leave_blocks_of_none (i := .marker i.addr .notTerminated) rfl
      (by simp [Instruction.marker])] at hrecorded
    exact ih hnext hrecorded

end Recorded

/-! ## The finished graph -/

/-- The draft of a script has exact records, and no two of its blocks start together. -/
theorem recorded_ofInstructions {stop : Nat} {l : List Instruction}
    (hl : Bytecode.Placed stop 0 l) :
    (∃ source, Recorded (Draft.ofInstructions l).blocks source []) ∧
      ((Draft.ofInstructions l).blocks.map (·.entry)).Nodup := by
  have hstart : (l.head?.map (·.addr)).getD 0 = 0 := by
    rw [hl.head_addr]
    rfl
  have hrecorded : Recorded (Draft.define ⟨[], []⟩ 0 none).blocks 0 [] := by
    refine ⟨fun p hp a => ?_, fun a e he => ?_⟩
    · rw [List.mem_singleton.mp hp]
      have hnone : predecessorsAt (Draft.define ⟨[], []⟩ 0 none).blocks a = [] := by
        unfold predecessorsAt
        rw [List.flatMap_eq_nil_iff]
        intro b hb
        rw [List.mem_singleton.mp (List.mem_filter.mp hb).1]
        rfl
      rw [hnone]
      show _ ≤ 1 ∧ _
      simp [owing]
    · obtain ⟨b, hb, hmem⟩ := List.mem_flatMap.mp he
      rw [List.mem_singleton.mp (List.mem_filter.mp hb).1] at hmem
      cases hmem
  unfold Draft.ofInstructions
  rw [hstart]
  refine ⟨Recorded.foldl_step hl resting_start hrecorded, ?_⟩
  obtain ⟨body, last, B, -, hent, hout⟩ := Draft.foldl_step hl resting_start
  have hentries : ∀ d : Draft, d.blocks.map (·.entry) = d.outline.map (·.entry) :=
    fun d => by rw [Draft.outline, List.map_map]; rfl
  -- closing the last block moves no entry
  have hchange : (changeAt B last fun _ => ⟨last, some stop, .linear, none, none, [], []⟩).map
      (·.entry) = B.map (·.entry) := by
    unfold changeAt
    rw [List.map_map]
    refine List.map_congr_left fun b _ => ?_
    rw [Function.comp_apply]
    split
    · next he => exact (beq_iff_eq.mp he).symm
    · rfl
  rw [hentries, hout, hchange]
  exact hent.drawn.nodup

/-- How often a block is recorded in another is explained by how it is left. -/
theorem explains_build {stop : Nat} {l : List Instruction} (hl : Bytecode.Placed stop 0 l)
    {p b : Block} (hp : p ∈ (build l).blocks) (hb : b ∈ (build l).blocks) :
    p.Explains b.entry (b.predecessors.count p.entry) := by
  obtain ⟨⟨source, hrecorded⟩, hnodup⟩ := recorded_ofInstructions hl
  have hp' := (List.mem_filter.mp (List.mem_mergeSort.mp hp)).1
  have hb' := (List.mem_filter.mp (List.mem_mergeSort.mp hb)).1
  have hexplains := hrecorded.exact p hp' b.entry
  rw [predecessorsAt_entry hnodup hb', owing, List.count_nil, ite_self, Nat.add_zero] at hexplains
  exact hexplains

/-- Whoever branches to a block is recorded there. -/
theorem mem_predecessors {stop : Nat} {l : List Instruction} (hl : Bytecode.Placed stop 0 l)
    {p b : Block} (hp : p ∈ (build l).blocks) (hb : b ∈ (build l).blocks)
    (hto : p.BranchesTo b.entry) : p.entry ∈ b.predecessors := by
  have hexplains := explains_build hl hp hb
  unfold Block.Explains at hexplains
  rw [← List.count_pos_iff]
  rcases hto with ⟨hkind, hleads⟩ | ⟨hkind, htarget⟩
  · rw [hkind] at hexplains
    rw [show _ = _ from hexplains, List.count_pos_iff]
    simpa [Block.leadsTo] using hleads
  · rw [hkind] at hexplains
    rw [show _ = _ from hexplains, List.count_pos_iff, htarget]
    exact List.mem_singleton_self _

/-- Whatever is recorded is a block of the graph. -/
theorem exists_of_mem_predecessors {stop : Nat} {l : List Instruction}
    (hl : Bytecode.Placed stop 0 l) {b : Block} (hb : b ∈ (build l).blocks) {e : Nat}
    (he : e ∈ b.predecessors) : ∃ p ∈ (build l).blocks, p.entry = e := by
  obtain ⟨⟨source, hrecorded⟩, hnodup⟩ := recorded_ofInstructions hl
  have hb' := (List.mem_filter.mp (List.mem_mergeSort.mp hb)).1
  rw [← predecessorsAt_entry hnodup hb'] at he
  obtain ⟨p, hp, hpe, hfull⟩ := hrecorded.known b.entry e he
  have hp' : p ∈ (build l).blocks := by
    unfold build Draft.finish
    rw [List.mem_mergeSort, List.mem_filter, hfull]
    exact ⟨hp, rfl⟩
  exact ⟨p, hp', hpe⟩

/-- In the graph of any script a block that branches or jumps is recorded in each block as often
as one of its targets is the entry of that block, a block that leaves the script is recorded
nowhere, and one that just goes on at most once, where it ends. Whatever is recorded is a block of
the graph. -/
theorem build_decode_predecessors (version : Version) (naming : Bool) (script : List UInt8) :
    (∀ p ∈ (build (Bytecode.decode version naming script)).blocks,
      ∀ b ∈ (build (Bytecode.decode version naming script)).blocks,
        (p.kind = .conditional →
          b.predecessors.count p.entry = [p.trueTarget, p.falseTarget].count (some b.entry)) ∧
        (p.kind = .jump → b.predecessors.count p.entry = [p.trueTarget].count (some b.entry)) ∧
        (p.kind = .procedure ∨ p.kind = .leave → p.entry ∉ b.predecessors) ∧
        (p.kind = .linear → b.predecessors.count p.entry ≤ 1 ∧
          (p.entry ∈ b.predecessors → p.exit = some b.entry))) ∧
      ∀ b ∈ (build (Bytecode.decode version naming script)).blocks, ∀ e ∈ b.predecessors,
        ∃ p ∈ (build (Bytecode.decode version naming script)).blocks, p.entry = e := by
  have hplaced := Bytecode.decode_placed version naming script
  refine ⟨fun p hp b hb => ?_, fun b hb e he => exists_of_mem_predecessors hplaced hb he⟩
  have hexplains := explains_build hplaced hp hb
  unfold Block.Explains at hexplains
  refine ⟨fun hkind => ?_, fun hkind => ?_, fun hkind => ?_, fun hkind => ?_⟩
  · rw [hkind] at hexplains
    exact hexplains
  · rw [hkind] at hexplains
    exact hexplains
  · rw [← List.count_eq_zero]
    rcases hkind with hkind | hkind <;> rw [hkind] at hexplains <;> exact hexplains
  · rw [hkind] at hexplains
    exact ⟨hexplains.1, fun hrecord => hexplains.2 (Nat.ne_of_gt (List.count_pos_iff.mpr hrecord))⟩

/-- A pause, a branch back onto itself, which divides the block that it ends, and a jump to the
branch. -/
def loopOnBranch : List UInt8 :=
  [0x82, 1, 0, 0, 0x01, 3, 230, 3, 0, 0, 245, 255, 255, 255, 0, 0x06, 4, 0, 0, 0, 0, 0x0a, 0]

/-- The branch is recorded once in its own block, between the pause before it and the jump. -/
theorem predecessors_of_loopOnBranch :
    ⟨4, some 15, .conditional, some 15, some 4, [], [0, 4, 15]⟩
        ∈ (build (Bytecode.decode .standard true loopOnBranch)).blocks ∧
      [0, 4, 15].count 4 = [some 15, some 4].count (some 4) := by
  have hmem : ⟨4, some 15, .conditional, some 15, some 4, [], [0, 4, 15]⟩
      ∈ (build (Bytecode.decode .standard true loopOnBranch)).blocks :=
    List.mem_mergeSort.mpr (by decide +kernel)
  exact ⟨hmem, ((build_decode_predecessors .standard true loopOnBranch).1 _ hmem _ hmem).1 rfl⟩

end BlockGraph

end Rio
