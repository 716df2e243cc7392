import Rio.Proofs.BlockGraph.Outline

/-!
# Tilings by blocks

Closed blocks that lie side by side: what such a row covers, that it is in order, and that it may be
extended at its end or divided anywhere. `changeAt_eq` says that a change to the block at an address
is a change at one place of the list, which is how changes to a draft meet a row.
-/

namespace Rio.BlockGraph

/-! ## Tilings -/

/-- Closed blocks that lie side by side from `lo` to `hi`, none of them without bytes. -/
def Tiles : Nat → List Block → Nat → Prop
  | lo, [], hi => lo = hi
  | lo, b :: rest, hi => b.entry = lo ∧ ∃ x, b.exit = some x ∧ lo < x ∧ Tiles x rest hi

theorem Tiles.append : ∀ {lo mid hi : Nat} {xs ys : List Block},
    Tiles lo xs mid → Tiles mid ys hi → Tiles lo (xs ++ ys) hi
  | _, _, _, [], _, h, h' => by
    rw [Tiles] at h
    subst h
    exact h'
  | _, _, _, _ :: _, _, ⟨he, x, hx, hlt, h⟩, h' => ⟨he, x, hx, hlt, h.append h'⟩

theorem Tiles.split : ∀ {lo hi : Nat} {xs ys : List Block}, Tiles lo (xs ++ ys) hi →
    ∃ mid, Tiles lo xs mid ∧ Tiles mid ys hi
  | lo, _, [], _, h => ⟨lo, rfl, h⟩
  | _, _, _ :: _, _, ⟨he, x, hx, hlt, h⟩ => by
    obtain ⟨mid, h₁, h₂⟩ := Tiles.split h
    exact ⟨mid, ⟨he, x, hx, hlt, h₁⟩, h₂⟩

theorem Tiles.le : ∀ {lo hi : Nat} {row : List Block}, Tiles lo row hi → lo ≤ hi
  | _, _, [], h => Nat.le_of_eq h
  | _, _, _ :: _, ⟨_, _, _, hlt, h⟩ => Nat.le_trans (Nat.le_of_lt hlt) h.le

/-- Each block of a tiling lies within it. -/
theorem Tiles.bounds : ∀ {lo hi : Nat} {row : List Block}, Tiles lo row hi → ∀ b ∈ row,
    ∃ x, b.exit = some x ∧ lo ≤ b.entry ∧ b.entry < x ∧ x ≤ hi
  | lo, hi, c :: rest, ⟨he, x, hx, hlt, h⟩, b, hb => by
    rcases List.mem_cons.mp hb with rfl | hb
    · exact ⟨x, hx, by omega, by omega, h.le⟩
    · obtain ⟨y, hy, h₁, h₂, h₃⟩ := h.bounds b hb
      exact ⟨y, hy, by omega, h₂, h₃⟩

theorem contains_iff {b : Block} {x addr : Nat} (hx : b.exit = some x) :
    b.contains addr = true ↔ b.entry ≤ addr ∧ addr < x := by
  unfold Block.contains
  rw [hx]
  simp

/-- Every address of a tiling lies in one of its blocks. -/
theorem Tiles.covers : ∀ {lo hi : Nat} {row : List Block}, Tiles lo row hi →
    ∀ addr, lo ≤ addr → addr < hi → ∃ b ∈ row, b.contains addr = true
  | lo, hi, [], h, addr, hlo, hhi => by
    rw [Tiles] at h
    omega
  | lo, hi, b :: rest, ⟨he, x, hx, hlt, h⟩, addr, hlo, hhi => by
    rcases Nat.lt_or_ge addr x with hin | hout
    · exact ⟨b, List.mem_cons_self .., (contains_iff hx).mpr ⟨by omega, hin⟩⟩
    · obtain ⟨c, hc, hcon⟩ := h.covers addr hout hhi
      exact ⟨c, List.mem_cons_of_mem _ hc, hcon⟩

/-- A block of a tiling ends where the next one starts, or where the tiling ends. -/
theorem Tiles.exit_cases : ∀ {lo hi : Nat} {row : List Block}, Tiles lo row hi →
    ∀ b ∈ row, ∀ x, b.exit = some x → x = hi ∨ ∃ c ∈ row, c.entry = x
  | _, _, c :: rest, ⟨_, y, hy, _, h⟩, b, hb, x, hx => by
    rcases List.mem_cons.mp hb with rfl | hb
    · rw [hx] at hy
      obtain rfl := Option.some.inj hy
      cases rest with
      | nil => exact Or.inl h
      | cons d rest => exact Or.inr ⟨d, List.mem_cons_of_mem _ (List.mem_cons_self ..), h.1⟩
    · rcases h.exit_cases b hb x hx with heq | ⟨d, hd, heq⟩
      · exact Or.inl heq
      · exact Or.inr ⟨d, List.mem_cons_of_mem _ hd, heq⟩

/-- The blocks of a tiling are in the order of their entries. -/
theorem Tiles.sorted : ∀ {lo hi : Nat} {row : List Block}, Tiles lo row hi →
    row.Pairwise (fun a b => a.entry < b.entry)
  | _, _, [], _ => List.Pairwise.nil
  | lo, hi, b :: rest, ⟨he, x, hx, hlt, h⟩ => by
    refine List.Pairwise.cons ?_ h.sorted
    intro c hc
    obtain ⟨_, _, hxc, _⟩ := h.bounds c hc
    omega

/-- No two blocks start together. -/
theorem Tiles.entry_inj : ∀ {lo hi : Nat} {row : List Block}, Tiles lo row hi →
    ∀ a ∈ row, ∀ b ∈ row, a.entry = b.entry → a = b
  | lo, hi, c :: rest, ⟨he, x, hx, hlt, h⟩, a, ha, b, hb, hab => by
    rcases List.mem_cons.mp ha with hac | ha' <;> rcases List.mem_cons.mp hb with hbc | hb'
    · rw [hac, hbc]
    · obtain ⟨_, _, hxb, _⟩ := h.bounds b hb'
      rw [hac] at hab
      omega
    · obtain ⟨_, _, hxa, _⟩ := h.bounds a ha'
      rw [hbc] at hab
      omega
    · exact h.entry_inj a ha' b hb' hab

/-- A block ends before any later one starts. -/
theorem Tiles.exit_le : ∀ {lo hi : Nat} {row : List Block}, Tiles lo row hi →
    ∀ a ∈ row, ∀ b ∈ row, a.entry < b.entry → ∀ x, a.exit = some x → x ≤ b.entry
  | lo, hi, c :: rest, ⟨he, y, hy, hlt, h⟩, a, ha, b, hb, hab, x, hx => by
    rcases List.mem_cons.mp ha with rfl | ha' <;> rcases List.mem_cons.mp hb with rfl | hb'
    · omega
    · obtain ⟨_, _, hyb, _⟩ := h.bounds b hb'
      rw [hx] at hy
      obtain rfl := Option.some.inj hy
      exact hyb
    · obtain ⟨_, _, hya, _⟩ := h.bounds a ha'
      omega
    · exact h.exit_le a ha' b hb' hab x hx

/-- Two blocks do not end at the same address. -/
theorem Tiles.exit_inj {lo hi : Nat} {row : List Block} (h : Tiles lo row hi) {a b : Block}
    (ha : a ∈ row) (hb : b ∈ row) {x : Nat} (hax : a.exit = some x) (hbx : b.exit = some x) :
    a = b := by
  have hne : ∀ a ∈ row, ∀ b ∈ row, a.exit = some x → b.exit = some x → ¬a.entry < b.entry := by
    intro a ha b hb hax hbx hlt
    have hle := h.exit_le a ha b hb hlt x hax
    obtain ⟨y, hy, -, hbounds, -⟩ := h.bounds b hb
    obtain rfl := Option.some.inj (hbx.symm.trans hy)
    omega
  have hab := hne a ha b hb hax hbx
  have hba := hne b hb a ha hbx hax
  exact h.entry_inj a ha b hb (by omega)

/-- Dividing a block of a tiling leaves a tiling. -/
theorem Tiles.divide {lo hi x addr : Nat} {xs ys : List Block} {b b₁ b₂ : Block}
    (h : Tiles lo (xs ++ b :: ys) hi) (hx : b.exit = some x) (hlo : b.entry < addr)
    (hhi : addr < x) (he₁ : b₁.entry = b.entry) (hx₁ : b₁.exit = some addr)
    (he₂ : b₂.entry = addr) (hx₂ : b₂.exit = some x) :
    Tiles lo (xs ++ b₁ :: b₂ :: ys) hi := by
  obtain ⟨mid, hxs, he, y, hy, hlt, hys⟩ := h.split
  rw [hx] at hy
  obtain rfl := Option.some.inj hy
  exact hxs.append ⟨he₁.trans he, addr, hx₁, by omega, he₂, x, hx₂, hhi, hys⟩

theorem tiles_map_outline : ∀ {lo hi : Nat} {row : List Block},
    Tiles lo (row.map Block.outline) hi ↔ Tiles lo row hi
  | _, _, [] => Iff.rfl
  | lo, hi, b :: rest => by
    rw [List.map_cons, Tiles, Tiles]
    constructor
    · rintro ⟨he, x, hx, hlt, h⟩
      exact ⟨he, x, hx, hlt, tiles_map_outline.mp h⟩
    · rintro ⟨he, x, hx, hlt, h⟩
      exact ⟨he, x, hx, hlt, tiles_map_outline.mpr h⟩

/-! ## Changing one block -/

theorem changeAt_append (xs ys : List Block) (entry : Nat) (change : Block → Block) :
    changeAt (xs ++ ys) entry change = changeAt xs entry change ++ changeAt ys entry change :=
  List.map_append

theorem changeAt_of_notMem {blocks : List Block} {entry : Nat} (change : Block → Block)
    (h : entry ∉ blocks.map (·.entry)) : changeAt blocks entry change = blocks := by
  unfold changeAt
  rw [List.map_congr_left (g := id), List.map_id]
  intro b hb
  have hne : ¬(b.entry == entry) = true := by
    intro he
    exact h (List.mem_map.mpr ⟨b, hb, beq_iff_eq.mp he⟩)
  rw [if_neg hne]
  rfl

/-- Where no two blocks start together, a change hits one block. -/
theorem changeAt_eq {blocks : List Block} {b : Block} (hnodup : (blocks.map (·.entry)).Nodup)
    (hb : b ∈ blocks) :
    ∃ xs ys, blocks = xs ++ b :: ys ∧
      ∀ change : Block → Block, changeAt blocks b.entry change = xs ++ change b :: ys := by
  obtain ⟨xs, ys, rfl⟩ := List.append_of_mem hb
  refine ⟨xs, ys, rfl, fun change => ?_⟩
  rw [List.map_append, List.map_cons, List.nodup_append] at hnodup
  obtain ⟨-, hys, hdisj⟩ := hnodup
  have hxs : b.entry ∉ xs.map (·.entry) := by
    intro hmem
    exact hdisj _ hmem _ (List.mem_cons_self ..) rfl
  rw [changeAt_append, changeAt_of_notMem change hxs]
  have hcons : changeAt (b :: ys) b.entry change = change b :: changeAt ys b.entry change := by
    simp [changeAt]
  rw [hcons, changeAt_of_notMem change (List.nodup_cons.mp hys).1]

/-- A block after a change is the changed one, or starts elsewhere. -/
theorem mem_changeAt {blocks : List Block} {entry : Nat} {changed b : Block}
    (hb : b ∈ changeAt blocks entry fun _ => changed) :
    b = changed ∨ b ∈ blocks ∧ b.entry ≠ entry := by
  obtain ⟨c, hc, rfl⟩ := List.mem_map.mp hb
  dsimp only
  by_cases he : c.entry = entry
  · rw [if_pos (beq_iff_eq.mpr he)]
    exact Or.inl rfl
  · rw [if_neg (fun h => he (beq_iff_eq.mp h))]
    exact Or.inr ⟨hc, he⟩

/-- A block among others is replaced by two, of which the second one comes last. -/
theorem perm_divide {xs ys r₁ r₂ : List Block} {b : Block} (b₁ b₂ : Block)
    (h : (r₁ ++ b :: r₂).Perm (xs ++ b :: ys)) :
    (r₁ ++ b₁ :: b₂ :: r₂).Perm (xs ++ b₁ :: ys ++ [b₂]) := by
  have hothers : (r₁ ++ r₂).Perm (xs ++ ys) :=
    (List.perm_middle.symm.trans (h.trans List.perm_middle)).cons_inv
  have hpair : (r₁ ++ b₁ :: b₂ :: r₂).Perm (b₂ :: b₁ :: (r₁ ++ r₂)) :=
    List.perm_middle.trans ((List.perm_middle.cons _).trans (List.Perm.swap ..))
  have hplace : (b₁ :: (r₁ ++ r₂)).Perm (xs ++ b₁ :: ys) :=
    (hothers.cons _).trans List.perm_middle.symm
  exact hpair.trans ((hplace.cons _).trans (List.perm_append_singleton _ _).symm)

end Rio.BlockGraph
