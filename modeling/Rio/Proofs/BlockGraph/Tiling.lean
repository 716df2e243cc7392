import Mathlib.Data.List.Nodup
import Rio.Proofs.Bytecode.Addresses
import Rio.Proofs.BlockGraph.Tiles

/-!
# The blocks of a script tile it

Blocks are found, closed and divided in the order in which branches turn up, and a branch may lead
anywhere: into the middle of an instruction, past the end, back onto itself. `build_decode_tiles`
says that the blocks that remain at the end lie side by side all the same, from the first byte of
the script to its last, whatever the bytes are.

> `Drawn done top cursor L B`: after the instructions `done`, with the next one at `cursor`, the
> closed blocks among the outlines `B` tile `[0, top)`, and a block starts exactly at the addresses
> in `L`.

Between two instructions the draft is `Resting`: either everything up to `cursor` is closed, or
the present block is open and the tiling ends where it starts. `enter` leads to `Entered`, where
the present block is always open, and `leave` back to `Resting`. Open blocks elsewhere lie ahead,
or in the middle of an instruction that has been passed; the latter are never reached and are
dropped in the end.
-/

namespace Rio.BlockGraph

/-! ## The invariant -/

/-- The outlines of a draft after the instructions `done`, tiled up to `top`, with blocks at the
addresses in `L`. -/
structure Drawn (done : List Instruction) (top cursor : Nat) (L : Nat → Prop) (B : List Block) :
    Prop where
  top_le : top ≤ cursor
  past : ∀ i ∈ done, i.next ≤ cursor
  nodup : (B.map (·.entry)).Nodup
  entries : ∀ a, a ∈ B.map (·.entry) ↔ L a
  opened : ∀ b ∈ B, b.exit = none → b = Block.opened b.entry
  /-- A closed block is left as the instruction at its end says. -/
  closed : ∀ b ∈ B, ∀ x, b.exit = some x → ∃ f, b = Block.ending b.entry x f ∧
    ∀ i ∈ done, i.IsProper → i.next = x → i.flow? = f
  tiled : ∃ row, row.Perm (B.filter (·.exit.isSome)) ∧ Tiles 0 row top
  /-- A block starts wherever one was ended. -/
  ended : ∀ i ∈ done, i.IsProper → i.flow? ≠ none → i.next < top → L i.next
  /-- Open blocks lie ahead, or are never reached. -/
  ahead : ∀ b ∈ B, b.exit = none → b.entry = top ∨ cursor ≤ b.entry ∨
    ∃ i ∈ done, i.addr < b.entry ∧ b.entry < i.next

namespace Drawn

variable {done : List Instruction} {top cursor : Nat} {L : Nat → Prop} {B : List Block}

theorem congr {L' : Nat → Prop} (h : Drawn done top cursor L B) (hL : ∀ a, L a ↔ L' a) :
    Drawn done top cursor L' B :=
  { h with
    entries := fun a => (h.entries a).trans (hL a)
    ended := fun i hi hp hf hlt => (hL _).mp (h.ended i hi hp hf hlt) }

/-- Closed blocks lie below the end of the tiling. -/
theorem bounds (h : Drawn done top cursor L B) {b : Block} {x : Nat} (hb : b ∈ B)
    (hx : b.exit = some x) : b.entry < x ∧ x ≤ top := by
  obtain ⟨row, hperm, htiles⟩ := h.tiled
  have hrow : b ∈ row :=
    hperm.mem_iff.mpr (List.mem_filter.mpr ⟨hb, by rw [hx]; rfl⟩)
  obtain ⟨y, hy, -, hlt, hle⟩ := htiles.bounds b hrow
  rw [hx] at hy
  obtain rfl := Option.some.inj hy
  exact ⟨hlt, hle⟩

/-- A block that starts at or after the end of the tiling is open. -/
theorem eq_opened (h : Drawn done top cursor L B) {b : Block} (hb : b ∈ B)
    (hle : top ≤ b.entry) : b = Block.opened b.entry := by
  apply h.opened b hb
  cases hx : b.exit with
  | none => rfl
  | some x =>
    have := h.bounds hb hx
    omega

theorem opened_mem (h : Drawn done top cursor L B) {a : Nat} (hL : L a) (hle : top ≤ a) :
    Block.opened a ∈ B := by
  obtain ⟨b, hb, rfl⟩ := List.mem_map.mp ((h.entries a).mpr hL)
  rw [← h.eq_opened hb hle]
  exact hb

/-- Below the end of the tiling every address lies in a closed block. -/
theorem exists_contains (h : Drawn done top cursor L B) {a : Nat} (ha : a < top) :
    ∃ b ∈ B, b.contains a = true := by
  obtain ⟨row, hperm, htiles⟩ := h.tiled
  obtain ⟨b, hb, hcon⟩ := htiles.covers a (Nat.zero_le _) ha
  exact ⟨b, (List.mem_filter.mp (hperm.mem_iff.mp hb)).1, hcon⟩

/-- A block at a new address starts where no other does. -/
theorem nodup_fresh (h : Drawn done top cursor L B) {a : Nat} (ha : ¬L a) :
    (B.map (·.entry) ++ [a]).Nodup := by
  rw [List.nodup_append]
  refine ⟨h.nodup, by simp, ?_⟩
  intro y hy z hz hyz
  rw [List.mem_singleton.mp hz] at hyz
  exact ha ((h.entries a).mp (hyz ▸ hy))

theorem mem_fresh (h : Drawn done top cursor L B) (a y : Nat) :
    y ∈ B.map (·.entry) ++ [a] ↔ L y ∨ y = a := by
  rw [List.mem_append, h.entries, List.mem_singleton]

/-- The block at the end of the tiling is closed where the next instruction starts. -/
theorem close {f : Option Flow} (h : Drawn done top cursor L B) (hlt : top < cursor) (hL : L top)
    (hflow : ∀ i ∈ done, i.IsProper → i.next = cursor → i.flow? = f)
    (hended : ∀ i ∈ done, i.IsProper → i.flow? ≠ none → i.next < cursor → L i.next) :
    Drawn done cursor cursor L (changeAt B top fun _ => Block.ending top cursor f) := by
  obtain ⟨xs, ys, rfl, hchange⟩ := changeAt_eq h.nodup (h.opened_mem hL (Nat.le_refl _))
  have hB : changeAt (xs ++ Block.opened top :: ys) top (fun _ => Block.ending top cursor f)
      = xs ++ Block.ending top cursor f :: ys := hchange _
  have hentries : (xs ++ Block.ending top cursor f :: ys).map (·.entry)
      = (xs ++ Block.opened top :: ys).map (·.entry) := by
    simp [Block.opened]
  -- apart from the block that is closed all blocks are as they were
  have hold : ∀ b ∈ xs ++ Block.ending top cursor f :: ys,
      b = Block.ending top cursor f ∨ b ∈ xs ++ Block.opened top :: ys ∧ b.entry ≠ top :=
    fun b hb => mem_changeAt (hB ▸ hb)
  rw [hB]
  refine ⟨Nat.le_refl _, h.past, hentries ▸ h.nodup, fun a => hentries ▸ h.entries a, ?_, ?_, ?_,
    hended, ?_⟩
  · intro b hb hx
    rcases hold b hb with rfl | ⟨hb, -⟩
    · rw [Block.ending_exit] at hx
      exact absurd hx (by simp)
    · exact h.opened b hb hx
  · intro b hb x hx
    rcases hold b hb with rfl | ⟨hb, -⟩
    · rw [Block.ending_exit] at hx
      obtain rfl := Option.some.inj hx
      exact ⟨f, by rw [Block.ending_entry], hflow⟩
    · exact h.closed b hb x hx
  -- the tiling goes on by the block that is closed, from its entry to here
  · obtain ⟨row, hperm, htiles⟩ := h.tiled
    refine ⟨row ++ [Block.ending top cursor f], ?_, ?_⟩
    · rw [List.filter_append, List.filter_cons_of_neg (by simp [Block.opened])] at hperm
      rw [List.filter_append, List.filter_cons_of_pos (by simp)]
      exact (List.perm_append_singleton _ _).trans
        ((hperm.cons _).trans List.perm_middle.symm)
    · have hlast : Tiles top [Block.ending top cursor f] cursor :=
        ⟨Block.ending_entry .., cursor, Block.ending_exit .., hlt, rfl⟩
      exact htiles.append hlast
  · intro b hb hx
    rcases hold b hb with rfl | ⟨hb, hne⟩
    · rw [Block.ending_exit] at hx
      exact absurd hx (by simp)
    · rcases h.ahead b hb hx with he | hge | hin
      · exact absurd he hne
      · exact Or.inr (Or.inl hge)
      · exact Or.inr (Or.inr hin)

/-- Passing an instruction that the present block goes on over. -/
theorem advance {i : Instruction} (h : Drawn done top cursor L B) (haddr : i.addr = cursor)
    (hlen : i.IsProper → 0 < i.len) (hnew : L cursor → cursor = top) :
    Drawn (done ++ [i]) top i.next L B := by
  have hle : cursor ≤ i.next := by
    unfold Instruction.next
    omega
  refine ⟨Nat.le_trans h.top_le hle, ?_, h.nodup, h.entries, h.opened, ?_, h.tiled, ?_, ?_⟩
  · intro j hj
    rcases List.mem_append.mp hj with hj | hj
    · exact Nat.le_trans (h.past j hj) hle
    · obtain rfl := List.mem_singleton.mp hj
      exact Nat.le_refl _
  · intro b hb x hx
    obtain ⟨f, hf, hold⟩ := h.closed b hb x hx
    refine ⟨f, hf, fun j hj hproper hnext => ?_⟩
    rcases List.mem_append.mp hj with hj | hj
    · exact hold j hj hproper hnext
    · -- the new instruction ends after every closed block
      rw [List.mem_singleton.mp hj] at hproper hnext
      have hpos := hlen hproper
      have hbound := (h.bounds hb hx).2
      have htop := h.top_le
      unfold Instruction.next at hnext
      omega
  · intro j hj hproper hflow hlt
    rcases List.mem_append.mp hj with hj | hj
    · exact h.ended j hj hproper hflow hlt
    · rw [List.mem_singleton.mp hj] at hlt
      have htop := h.top_le
      omega
  · intro b hb hx
    rcases h.ahead b hb hx with he | hge | ⟨j, hj, hin⟩
    · exact Or.inl he
    -- an open block ahead is still ahead, or it starts within the new instruction
    · rcases Nat.lt_or_ge b.entry i.next with hlt | hge'
      · rcases Nat.eq_or_lt_of_le hge with heq | hgt
        · have hL : L cursor := by
            rw [heq]
            exact (h.entries _).mp (List.mem_map.mpr ⟨b, hb, rfl⟩)
          exact Or.inl (by rw [← heq]; exact hnew hL)
        · exact Or.inr (Or.inr ⟨i, List.mem_append_right _ (List.mem_singleton.mpr rfl),
            by omega, hlt⟩)
      · exact Or.inr (Or.inl hge')
    · exact Or.inr (Or.inr ⟨j, List.mem_append_left _ hj, hin⟩)

/-- Dividing a closed block where no block starts. -/
theorem divide {head : Block} {a : Nat} (h : Drawn done top cursor L B) (hb : head ∈ B)
    (hcon : head.contains a = true) (ha : ¬L a) :
    Drawn done top cursor (fun y => L y ∨ y = a)
      (changeAt B head.entry (Block.shorten a) ++ [{ head with entry := a }]) := by
  obtain ⟨x, hx⟩ : ∃ x, head.exit = some x := by
    cases hx : head.exit with
    | none => exact absurd hcon (by simp [Block.contains, hx])
    | some x => exact ⟨x, rfl⟩
  obtain ⟨hle, hlt⟩ := (contains_iff hx).mp hcon
  have hentry : head.entry ≠ a := by
    intro he
    exact ha ((h.entries a).mp (List.mem_map.mpr ⟨head, hb, he⟩))
  have htop := (h.bounds hb hx).2
  obtain ⟨f, hf, hflow⟩ := h.closed head hb x hx
  generalize head.entry = e at hf hle hentry
  subst hf
  obtain ⟨xs, ys, hsplit, hchange⟩ := changeAt_eq h.nodup hb
  rw [Block.ending_entry] at hchange
  rw [hchange, Block.shorten_ending, Block.ending_from]
  have hentries : (xs ++ Block.ending e a none :: ys ++ [Block.ending a x f]).map (·.entry)
      = B.map (·.entry) ++ [a] := by
    rw [hsplit]
    simp
  have hmem : ∀ b ∈ xs ++ Block.ending e a none :: ys ++ [Block.ending a x f],
      b = Block.ending e a none ∨ b = Block.ending a x f ∨ b ∈ B := by
    intro b hb'
    rw [hsplit]
    simp only [List.mem_append, List.mem_cons, List.not_mem_nil, or_false] at hb' ⊢
    rcases hb' with (hx | rfl | hy) | rfl
    · exact Or.inr (Or.inr (Or.inl hx))
    · exact Or.inl rfl
    · exact Or.inr (Or.inr (Or.inr (Or.inr hy)))
    · exact Or.inr (Or.inl rfl)
  refine ⟨h.top_le, h.past, hentries ▸ h.nodup_fresh ha, fun y => hentries ▸ h.mem_fresh a y, ?_,
    ?_, ?_, ?_, ?_⟩
  · intro b hb' hnone
    rcases hmem b hb' with rfl | rfl | hold
    · exact absurd hnone (by simp)
    · exact absurd hnone (by simp)
    · exact h.opened b hold hnone
  · intro b hb' y hy
    rcases hmem b hb' with rfl | rfl | hold
    · rw [Block.ending_exit] at hy
      obtain rfl := Option.some.inj hy
      refine ⟨none, by rw [Block.ending_entry], fun i hi hproper hnext => ?_⟩
      -- had an instruction ended a block here, a block would start here
      cases hfl : i.flow? with
      | none => rfl
      | some g =>
        have hL := h.ended i hi hproper (by simp [hfl]) (by omega)
        exact absurd (hnext ▸ hL) ha
    · rw [Block.ending_exit] at hy
      obtain rfl := Option.some.inj hy
      exact ⟨f, by rw [Block.ending_entry], hflow⟩
    · exact h.closed b hold y hy
  · obtain ⟨row, hperm, htiles⟩ := h.tiled
    have hrow : Block.ending e x f ∈ row :=
      hperm.mem_iff.mpr (List.mem_filter.mpr ⟨hb, by simp⟩)
    obtain ⟨r₁, r₂, rfl⟩ := List.append_of_mem hrow
    refine ⟨r₁ ++ Block.ending e a none :: Block.ending a x f :: r₂, ?_, ?_⟩
    · rw [hsplit, List.filter_append, List.filter_cons_of_pos (by simp)] at hperm
      have hnew : (xs ++ Block.ending e a none :: ys ++ [Block.ending a x f]).filter (·.exit.isSome)
          = xs.filter (·.exit.isSome) ++ Block.ending e a none :: ys.filter (·.exit.isSome)
            ++ [Block.ending a x f] := by
        simp
      rw [hnew]
      exact perm_divide _ _ hperm
    · exact htiles.divide (Block.ending_exit ..) (by rw [Block.ending_entry]; omega) hlt
        (by rw [Block.ending_entry, Block.ending_entry]) (Block.ending_exit ..)
        (Block.ending_entry ..) (Block.ending_exit ..)
  · intro i hi hproper hf hlt'
    exact Or.inl (h.ended i hi hproper hf hlt')
  · intro b hb' hnone
    rcases hmem b hb' with rfl | rfl | hold
    · exact absurd hnone (by simp)
    · exact absurd hnone (by simp)
    · exact h.ahead b hold hnone

/-- Adding an open block where there is none and none is closed. -/
theorem add {a : Nat} (h : Drawn done cursor cursor L B) (ha : ¬L a)
    (hout : ∀ b ∈ B, ¬b.contains a = true) :
    Drawn done cursor cursor (fun y => L y ∨ y = a) (B ++ [Block.opened a]) := by
  -- what lies before the cursor is tiled, so a new block can only be ahead
  have hle : cursor ≤ a := by
    rcases Nat.lt_or_ge a cursor with hlt | hge
    · obtain ⟨b, hb, hcon⟩ := h.exists_contains hlt
      exact absurd hcon (hout b hb)
    · exact hge
  have hentries : (B ++ [Block.opened a]).map (·.entry) = B.map (·.entry) ++ [a] := by
    simp [Block.opened]
  have hmem : ∀ b ∈ B ++ [Block.opened a], b = Block.opened a ∨ b ∈ B := by
    intro b hb
    rcases List.mem_append.mp hb with hb | hb
    · exact Or.inr hb
    · exact Or.inl (List.mem_singleton.mp hb)
  refine ⟨h.top_le, h.past, hentries ▸ h.nodup_fresh ha, fun y => hentries ▸ h.mem_fresh a y, ?_,
    ?_, ?_, ?_, ?_⟩
  · intro b hb hx
    rcases hmem b hb with rfl | hold
    · rfl
    · exact h.opened b hold hx
  · intro b hb x hx
    rcases hmem b hb with rfl | hold
    · exact absurd hx (by simp [Block.opened])
    · exact h.closed b hold x hx
  · obtain ⟨row, hperm, htiles⟩ := h.tiled
    refine ⟨row, ?_, htiles⟩
    rw [List.filter_append, List.filter_cons_of_neg (by simp [Block.opened]), List.filter_nil,
      List.append_nil]
    exact hperm
  · intro i hi hproper hf hlt
    exact Or.inl (h.ended i hi hproper hf hlt)
  · intro b hb hx
    rcases hmem b hb with rfl | hold
    · exact Or.inr (Or.inl hle)
    · exact h.ahead b hold hx

/-- Seeing to a block at an address. -/
theorem define (h : Drawn done cursor cursor L B) (a : Nat) :
    Drawn done cursor cursor (fun y => L y ∨ y = a) (defineIn B a) := by
  have hany : B.any (·.entry == a) = true ↔ L a := by
    rw [← h.entries]
    simp
  unfold defineIn
  by_cases ha : L a
  · rw [if_pos (hany.mpr ha)]
    apply h.congr
    intro y
    exact ⟨Or.inl, fun hy => hy.elim id fun he => he ▸ ha⟩
  · rw [if_neg (fun h' => ha (hany.mp h'))]
    cases hfind : B.find? (·.contains a) with
    | none => exact h.add ha (List.find?_eq_none.mp hfind)
    | some head =>
      have hcon : head.contains a = true :=
        List.find?_some (p := fun b : Block => b.contains a) hfind
      exact h.divide (List.mem_of_find?_eq_some hfind) hcon ha

theorem foldl_define (addrs : List Nat) : ∀ {L : Nat → Prop} {B : List Block},
    Drawn done cursor cursor L B →
      Drawn done cursor cursor (fun y => L y ∨ y ∈ addrs) (addrs.foldl defineIn B) := by
  induction addrs with
  | nil =>
    intro L B h
    exact h.congr fun y => ⟨Or.inl, fun hy => hy.elim id fun hm => absurd hm (by simp)⟩
  | cons a addrs ih =>
    intro L B h
    apply (ih (h.define a)).congr
    intro y
    rw [List.mem_cons, or_assoc]

end Drawn

/-! ## From instruction to instruction -/

/-- The addresses where some instruction ends a block, and where it leads. -/
def IsLeader (done : List Instruction) (a : Nat) : Prop :=
  a = 0 ∨ ∃ i ∈ done, ∃ f, i.flow? = some f ∧ a ∈ f.opens i.next

theorem isLeader_append (done : List Instruction) (i : Instruction) (a : Nat) :
    IsLeader (done ++ [i]) a ↔ IsLeader done a ∨ ∃ f, i.flow? = some f ∧ a ∈ f.opens i.next := by
  unfold IsLeader
  constructor
  · rintro (h | ⟨j, hj, f, hf, ha⟩)
    · exact Or.inl (Or.inl h)
    · rcases List.mem_append.mp hj with hj | hj
      · exact Or.inl (Or.inr ⟨j, hj, f, hf, ha⟩)
      · exact Or.inr ⟨f, List.mem_singleton.mp hj ▸ hf, List.mem_singleton.mp hj ▸ ha⟩
  · rintro ((h | ⟨j, hj, f, hf, ha⟩) | ⟨f, hf, ha⟩)
    · exact Or.inl h
    · exact Or.inr ⟨j, List.mem_append_left _ hj, f, hf, ha⟩
    · exact Or.inr ⟨i, List.mem_append_right _ (List.mem_singleton.mpr rfl), f, hf, ha⟩

theorem next_mem_opens (next : Nat) (f : Flow) : next ∈ f.opens next := by
  cases f <;> simp [Flow.opens]

theorem isLeader_next {done : List Instruction} {i : Instruction} (hi : i ∈ done)
    (hf : i.flow? ≠ none) : IsLeader done i.next := by
  obtain ⟨f, hf⟩ := Option.ne_none_iff_exists'.mp hf
  exact Or.inr ⟨i, hi, f, hf, next_mem_opens _ f⟩

/-- Markers do not pass on control. -/
theorem isProper_of_flow? {i : Instruction} {f : Flow} (h : i.flow? = some f) : i.IsProper := by
  unfold Instruction.flow? at h
  constructor <;> intro hm <;>
    simp [hm, Mnemonic.isConditional, Mnemonic.comparison?, Mnemonic.isJump,
      Mnemonic.isProcedureJump, Mnemonic.isReturn] at h

/-- The next instruction is about to be dealt with, in the block that starts at `current`. -/
structure Entered (done : List Instruction) (cursor : Nat) (B : List Block) (current : Nat) :
    Prop where
  drawn : Drawn done current cursor (IsLeader done) B
  leader : IsLeader done current
  fresh : IsLeader done cursor → cursor = current
  outside : ∀ i ∈ done, i.next ≤ current ∨ current ≤ i.addr

/-- Between two instructions: everything is closed and the next instruction starts a block, or the
block that starts at `current` is still open. -/
def Resting (done : List Instruction) (cursor : Nat) (B : List Block) (current : Nat) : Prop :=
  (∀ i ∈ done, i.next ≤ current ∨ current ≤ i.addr) ∧
    ((Drawn done cursor cursor (IsLeader done) B ∧ current < cursor ∧ IsLeader done cursor) ∨
      (Drawn done current cursor (IsLeader done) B ∧ IsLeader done current ∧
        (current < cursor → ∀ i ∈ done, i.IsProper → i.next = cursor → i.flow? = none)))

namespace Draft

variable {done : List Instruction} {cursor current : Nat} {d : Draft}

theorem has_iff {top : Nat} {L : Nat → Prop} (h : Drawn done top cursor L d.outline) (a : Nat) :
    d.has a = true ↔ L a := by
  rw [has_eq, ← h.entries]
  simp

theorem outline_eq_opened {L : Nat → Prop} (h : Drawn done current cursor L d.outline) :
    ∀ b ∈ d.blocks, b.entry = current → b.outline = Block.opened current := by
  intro b hb he
  have hmem : b.outline ∈ d.outline := List.mem_map.mpr ⟨b, hb, rfl⟩
  rw [h.eq_opened hmem (Nat.le_of_eq he.symm), Block.outline_entry, he]

/-- Reaching an instruction. -/
theorem enter_entered (h : Resting done cursor d.outline current) :
    Entered done cursor (d.enter current cursor).1.outline (d.enter current cursor).2 := by
  obtain ⟨houtside, ⟨hdrawn, hlt, hleader⟩ | ⟨hdrawn, hleader, hflow⟩⟩ := h
  · -- the present block is closed, so the next one is entered
    have hclosed : ∀ b ∈ d.blocks, b.entry = current → b.exit ≠ none := by
      intro b hb he hx
      have hmem : b.outline ∈ d.outline := List.mem_map.mpr ⟨b, hb, rfl⟩
      rcases hdrawn.ahead _ hmem hx with htop | hge | ⟨i, hi, hin⟩
      · rw [Block.outline_entry] at htop
        omega
      · rw [Block.outline_entry] at hge
        omega
      · rw [Block.outline_entry, he] at hin
        rcases houtside i hi with hi' | hi' <;> omega
    obtain ⟨hout, hcur⟩ :=
      enter_outline_of_closed ((has_iff hdrawn cursor).mpr hleader) (by omega) hclosed
    rw [hout, hcur]
    exact ⟨hdrawn, hleader, fun _ => rfl, fun i hi => Or.inl (hdrawn.past i hi)⟩
  · by_cases hnew : IsLeader done cursor ∧ cursor ≠ current
    · -- the present block is open and closes here
      obtain ⟨hcursor, hne⟩ := hnew
      have hlt : current < cursor := Nat.lt_of_le_of_ne hdrawn.top_le (Ne.symm hne)
      obtain ⟨hout, hcur⟩ :=
        enter_outline_of_open ((has_iff hdrawn cursor).mpr hcursor) hne (outline_eq_opened hdrawn)
      rw [hout, hcur]
      have hclose := hdrawn.close hlt hleader (hflow hlt) fun i hi _ hf _ => isLeader_next hi hf
      exact ⟨hclose, hcursor, fun _ => rfl, fun i hi => Or.inl (hdrawn.past i hi)⟩
    · have hstay : IsLeader done cursor → cursor = current := by
        intro hcursor
        exact Classical.not_not.mp fun hne => hnew ⟨hcursor, hne⟩
      rw [enter_of_stay fun hhas => hstay ((has_iff hdrawn cursor).mp hhas)]
      exact ⟨hdrawn, hleader, hstay, houtside⟩

/-- An instruction that ends a block ends behind the entry of the present one. -/
theorem current_lt_next {i : Instruction} {f : Flow} (h : Entered done i.addr d.outline current)
    (hlen : i.IsProper → 0 < i.len) (hf : i.flow? = some f) : current < i.next := by
  have hpos := hlen (isProper_of_flow? hf)
  have hcurrent : current ≤ i.addr := h.drawn.top_le
  unfold Instruction.next
  omega

/-- An instruction that ends a block closes the present one. -/
theorem close_drawn_of_flow {i : Instruction} {f : Flow}
    (h : Entered done i.addr d.outline current) (hlen : i.IsProper → 0 < i.len)
    (hf : i.flow? = some f) :
    Drawn (done ++ [i]) i.next i.next (IsLeader done)
      (changeAt d.outline current fun _ => Block.ending current i.next (some f)) := by
  have hpos := hlen (isProper_of_flow? hf)
  have hnext : ∀ j ∈ done ++ [i], j.next < i.next ∨ j = i := by
    intro j hj
    rcases List.mem_append.mp hj with hj | hj
    · have hpast := h.drawn.past j hj
      unfold Instruction.next at hpast ⊢
      omega
    · exact Or.inr (List.mem_singleton.mp hj)
  apply (h.drawn.advance rfl hlen h.fresh).close (current_lt_next h hlen hf) h.leader
  · intro j hj _ heq
    rcases hnext j hj with hlt' | rfl
    · omega
    · exact hf
  · intro j hj _ hjf hjlt
    rcases List.mem_append.mp hj with hj | hj
    · exact isLeader_next hj hjf
    · rw [List.mem_singleton.mp hj] at hjlt
      omega

/-- An instruction that ends a block closes the present one and opens those it leads to. -/
theorem leave_drawn_of_flow {i : Instruction} {f : Flow} (h : Entered done i.addr d.outline current)
    (hlen : i.IsProper → 0 < i.len) (hf : i.flow? = some f) :
    Drawn (done ++ [i]) i.next i.next (IsLeader (done ++ [i])) (d.leave current i).outline ∧
      current < i.next ∧ IsLeader (done ++ [i]) i.next := by
  have hleaders : ∀ a, IsLeader done a ∨ a ∈ f.opens i.next ↔ IsLeader (done ++ [i]) a := by
    intro a
    rw [isLeader_append]
    constructor
    · exact fun ha => ha.imp id fun hm => ⟨f, hf, hm⟩
    · rintro (ha | ⟨g, hg, hm⟩)
      · exact Or.inl ha
      · rw [hf] at hg
        exact Or.inr (Option.some.inj hg ▸ hm)
  have hclose := close_drawn_of_flow h hlen hf
  rw [leave_of_flow hf (outline_eq_opened h.drawn)]
  exact ⟨(hclose.foldl_define (f.opens i.next)).congr hleaders, current_lt_next h hlen hf,
    (hleaders _).mp (Or.inr (next_mem_opens _ f))⟩

/-- Any other instruction leaves the present block open, and no instruction that ends where it does
ends a block. -/
theorem leave_drawn_of_none {i : Instruction} (h : Entered done i.addr d.outline current)
    (hlen : i.IsProper → 0 < i.len) (hend : i.mnemonic ≠ .endOfStream) (hf : i.flow? = none) :
    Drawn (done ++ [i]) current i.next (IsLeader (done ++ [i])) (d.leave current i).outline ∧
      IsLeader (done ++ [i]) current ∧
      (current < i.next → ∀ j ∈ done ++ [i], j.IsProper → j.next = i.next → j.flow? = none) := by
  have hleaders : ∀ a, IsLeader done a ↔ IsLeader (done ++ [i]) a := by
    intro a
    rw [isLeader_append]
    exact ⟨Or.inl, fun ha => ha.elim id fun ⟨g, hg, _⟩ => absurd (hf ▸ hg) (by simp)⟩
  rw [leave_of_none hf hend]
  refine ⟨(h.drawn.advance rfl hlen h.fresh).congr hleaders, (hleaders _).mp h.leader, ?_⟩
  intro hlt j hj hproper heq
  rcases List.mem_append.mp hj with hj | hj
  · -- an earlier instruction that ends here would have started a block here
    cases hjf : j.flow? with
    | none => rfl
    | some g =>
      have hpast := h.drawn.past j hj
      have haddr : i.next = i.addr := by
        unfold Instruction.next at heq hpast ⊢
        omega
      have hL := isLeader_next hj (by simp [hjf] : j.flow? ≠ none)
      rw [heq, haddr] at hL
      have := h.fresh hL
      omega
  · rw [List.mem_singleton.mp hj]
    exact hf

/-- Dealing with an instruction. -/
theorem leave_resting {i : Instruction} (h : Entered done i.addr d.outline current)
    (hlen : i.IsProper → 0 < i.len) (hend : i.mnemonic ≠ .endOfStream) :
    Resting (done ++ [i]) i.next (d.leave current i).outline current := by
  have houtside : ∀ j ∈ done ++ [i], j.next ≤ current ∨ current ≤ j.addr := by
    intro j hj
    rcases List.mem_append.mp hj with hj | hj
    · exact h.outside j hj
    · exact Or.inr (List.mem_singleton.mp hj ▸ h.drawn.top_le)
  refine ⟨houtside, ?_⟩
  cases hf : i.flow? with
  | some f => exact Or.inl (leave_drawn_of_flow h hlen hf)
  | none => exact Or.inr (leave_drawn_of_none h hlen hend hf)

/-- After the last instruction, the end of the script closes the present block. -/
theorem foldl_step {stop : Nat} {l : List Instruction} (hl : Bytecode.Placed stop cursor l)
    (h : Resting done cursor d.outline current) :
    ∃ body last B, l = body ++ [.marker stop .endOfStream] ∧
      Entered (done ++ body) stop B last ∧
      (l.foldl step (d, current)).1.outline
        = changeAt B last fun _ => ⟨last, some stop, .linear, none, none, [], []⟩ := by
  -- by induction on the placing: each instruction is reached and left
  induction hl generalizing done d current with
  | last =>
    have hent := enter_entered h
    refine ⟨[], (d.enter current stop).2, (d.enter current stop).1.outline, rfl,
      by rw [List.append_nil]; exact hent, ?_⟩
    exact leave_end (outline_eq_opened hent.drawn)
  | @proper i rest hproper hpos _ ih =>
    have hent := enter_entered h
    have hrest := leave_resting hent (fun _ => hpos) hproper.2
    obtain ⟨body, last, B, rfl, hfinal, hout⟩ := ih hrest
    refine ⟨i :: body, last, B, rfl, ?_, hout⟩
    rw [← List.append_cons] at hfinal
    exact hfinal
  | @unterminated i rest hproper _ ih =>
    have hent := enter_entered h
    have hmark : ¬(Instruction.marker i.addr .notTerminated).IsProper := fun hp => hp.1 rfl
    have hrest := leave_resting (i := .marker i.addr .notTerminated) hent
      (fun hp => absurd hp hmark) (by simp [Instruction.marker])
    obtain ⟨body, last, B, heq, hfinal, hout⟩ := ih hrest
    refine ⟨.marker i.addr .notTerminated :: body, last, B, by rw [heq]; rfl, ?_, hout⟩
    rw [← List.append_cons] at hfinal
    exact hfinal

end Draft

/-! ## The finished graph -/

/-- There is one order by entries if no two are the same. -/
theorem mergeSort_eq_of_perm {blocks row : List Block} (hperm : blocks.Perm row)
    (hrow : row.Pairwise fun a b => a.entry < b.entry) :
    blocks.mergeSort (fun a b => decide (a.entry ≤ b.entry)) = row := by
  have hsort :=
    (List.mergeSort_perm blocks fun a b : Block => decide (a.entry ≤ b.entry)).trans hperm
  have hsorted : (blocks.mergeSort fun a b => decide (a.entry ≤ b.entry)).Pairwise
      fun a b => decide (a.entry ≤ b.entry) = true := by
    apply List.pairwise_mergeSort
    · intro a b c hab hbc
      simp only [decide_eq_true_eq] at hab hbc ⊢
      omega
    · intro a b
      simp only [Bool.or_eq_true, decide_eq_true_eq]
      omega
  have hle : row.Pairwise fun a b => decide (a.entry ≤ b.entry) = true :=
    hrow.imp fun hlt => decide_eq_true (Nat.le_of_lt hlt)
  have hentries : (row.map (·.entry)).Nodup := List.pairwise_map.mpr (hrow.imp Nat.ne_of_lt)
  refine List.Perm.eq_of_pairwise ?_ hsorted hle hsort
  intro a b ha hb hab hba
  exact List.inj_on_of_nodup_map hentries (hsort.mem_iff.mp ha) hb
    (Nat.le_antisymm (of_decide_eq_true hab) (of_decide_eq_true hba))

/-- The graph has the blocks of the draft that hold something, by their entries. -/
theorem build_eq_of_perm {l : List Instruction} {row : List Block}
    (hperm : ((Draft.ofInstructions l).blocks.filter fun b => !b.isEmpty).Perm row)
    (hrow : row.Pairwise fun a b => a.entry < b.entry) : build l = ⟨row⟩ :=
  congrArg mk (mergeSort_eq_of_perm hperm hrow)

namespace Draft

/-- Sorting the blocks that hold something puts them in the order of the tiling. -/
theorem finish_outline {d : Draft} {lo hi : Nat} {row : List Block}
    (hperm : row.Perm (d.outline.filter fun b => !b.isEmpty)) (htiles : Tiles lo row hi) :
    d.finish.blocks.map Block.outline = row := by
  have hfilter : (d.blocks.filter fun b => !b.isEmpty).map Block.outline
      = d.outline.filter fun b => !b.isEmpty := by
    unfold outline
    rw [List.filter_map]
    rfl
  have hmap : d.finish.blocks.map Block.outline
      = (d.outline.filter fun b => !b.isEmpty).mergeSort fun a b => decide (a.entry ≤ b.entry) := by
    rw [← hfilter]
    exact List.map_mergeSort fun _ _ _ _ => rfl
  rw [hmap]
  exact mergeSort_eq_of_perm hperm.symm htiles.sorted

end Draft

/-- The block that the end of the script closes. -/
def lastBlock (entry stop : Nat) : Block :=
  ⟨entry, some stop, .linear, none, none, [], []⟩

/-- Before the end, a block holds something exactly if it is closed. -/
theorem Drawn.isEmpty_eq {done : List Instruction} {top cursor : Nat} {L : Nat → Prop}
    {B : List Block} (h : Drawn done top cursor L B) {b : Block} (hb : b ∈ B) :
    (!b.isEmpty) = b.exit.isSome := by
  unfold Block.isEmpty Block.size
  cases hx : b.exit with
  | none => rfl
  | some x =>
    have := (h.bounds hb hx).1
    simp only [Option.isSome_some, Bool.not_eq_true', beq_eq_false_iff_ne]
    omega

/-- Before the first instruction there is one open block. -/
theorem resting_start : Resting [] 0 (Draft.define ⟨[], []⟩ 0 none).outline 0 := by
  refine ⟨fun i hi => absurd hi (by simp), Or.inr ⟨?_, Or.inl rfl, fun h => absurd h (by omega)⟩⟩
  refine ⟨Nat.le_refl _, by simp, by decide, ?_, ?_, ?_, ⟨[], by decide, rfl⟩, by simp, ?_⟩
  · intro a
    rw [show (Draft.define ⟨[], []⟩ 0 none).outline = [Block.opened 0] from rfl]
    simp [IsLeader, Block.opened]
  · intro b hb _
    rw [List.mem_singleton.mp hb]
    rfl
  · intro b hb x hx
    rw [List.mem_singleton.mp hb] at hx
    exact absurd hx (by simp [Block.opened, Block.outline])
  · intro b hb _
    rw [List.mem_singleton.mp hb]
    exact Or.inl rfl

/-- The graph of instructions in a row: the closed blocks at the end of the script, and the block
that the end closes unless it holds nothing. -/
theorem build_outline {stop : Nat} {l : List Instruction} (hl : Bytecode.Placed stop 0 l) :
    ∃ body last B row, l = body ++ [.marker stop .endOfStream] ∧ Entered body stop B last ∧
      row.Perm (B.filter (·.exit.isSome)) ∧ Tiles 0 row last ∧
      (build l).blocks.map Block.outline
        = row ++ if last < stop then [lastBlock last stop] else [] := by
  have hstart : (l.head?.map (·.addr)).getD 0 = 0 := by
    rw [hl.head_addr]
    rfl
  obtain ⟨body, last, B, heq, hent, hout⟩ := Draft.foldl_step hl resting_start
  obtain ⟨row, hperm, htiles⟩ := hent.drawn.tiled
  refine ⟨body, last, B, row, heq, by simpa using hent, hperm, htiles, ?_⟩
  have hdraft : (Draft.ofInstructions l).outline
      = changeAt B last fun _ => lastBlock last stop := by
    unfold Draft.ofInstructions
    rw [hstart]
    exact hout
  -- only the last block has changed since everything below it was closed
  obtain ⟨xs, ys, hB, hchange⟩ :=
    changeAt_eq hent.drawn.nodup (hent.drawn.opened_mem hent.leader (Nat.le_refl _))
  have hchange' : changeAt B last (fun _ => lastBlock last stop)
      = xs ++ lastBlock last stop :: ys :=
    hchange _
  have hxs : xs.filter (fun b => !b.isEmpty) = xs.filter (·.exit.isSome) :=
    List.filter_congr fun b hb => hent.drawn.isEmpty_eq (hB ▸ List.mem_append_left _ hb)
  have hys : ys.filter (fun b => !b.isEmpty) = ys.filter (·.exit.isSome) :=
    List.filter_congr fun b hb =>
      hent.drawn.isEmpty_eq (hB ▸ List.mem_append_right _ (List.mem_cons_of_mem _ hb))
  rw [hB, List.filter_append, List.filter_cons_of_neg (by simp [Block.opened])] at hperm
  have hle : last ≤ stop := hent.drawn.top_le
  unfold build
  by_cases hlt : last < stop
  · rw [if_pos hlt]
    have hlast : Tiles last [lastBlock last stop] stop := ⟨rfl, stop, rfl, hlt, rfl⟩
    refine Draft.finish_outline ?_ (htiles.append hlast)
    rw [hdraft, hchange', List.filter_append, hxs, List.filter_cons_of_pos, hys]
    · exact (List.perm_append_singleton _ _).trans ((hperm.cons _).trans List.perm_middle.symm)
    · simp only [lastBlock, Block.isEmpty, Block.size, Bool.not_eq_true', beq_eq_false_iff_ne]
      omega
  · rw [if_neg hlt, List.append_nil]
    refine Draft.finish_outline ?_ htiles
    rw [hdraft, hchange', List.filter_append, hxs, List.filter_cons_of_neg, hys]
    · exact hperm
    · simp only [lastBlock, Block.isEmpty, Block.size, Bool.not_eq_true', beq_eq_false_iff_ne]
      omega

theorem tiles_build {stop : Nat} {l : List Instruction} (hl : Bytecode.Placed stop 0 l) :
    Tiles 0 (build l).blocks stop := by
  obtain ⟨body, last, B, row, -, hent, -, htiles, hrow⟩ := build_outline hl
  have hle : last ≤ stop := hent.drawn.top_le
  rw [← tiles_map_outline, hrow]
  by_cases hlt : last < stop
  · rw [if_pos hlt]
    exact htiles.append ⟨rfl, stop, rfl, hlt, rfl⟩
  · rw [if_neg hlt, List.append_nil, show stop = last by omega]
    exact htiles

theorem Tiles.blockAt?_eq_some_iff {lo hi : Nat} {g : BlockGraph} (h : Tiles lo g.blocks hi)
    {addr : Nat} {b : Block} : g.blockAt? addr = some b ↔ b ∈ g.blocks ∧ b.entry = addr := by
  unfold blockAt?
  constructor
  · intro hfind
    exact ⟨List.mem_of_find?_eq_some hfind, by simpa using List.find?_some hfind⟩
  · rintro ⟨hb, rfl⟩
    cases hfind : g.blocks.find? (·.entry == b.entry) with
    | none => exact absurd (beq_self_eq_true _) (List.find?_eq_none.mp hfind b hb)
    | some c =>
      have hc : c.entry = b.entry := by simpa using List.find?_some hfind
      rw [h.entry_inj c (List.mem_of_find?_eq_some hfind) b hb hc]

/-- The blocks of any script whatever tile it, and they are found by where they start. -/
theorem build_decode_tiles (version : Version) (naming : Bool) (script : List UInt8) :
    Tiles 0 (build (Bytecode.decode version naming script)).blocks script.length ∧
      ((build (Bytecode.decode version naming script)).blocks = [] ↔ script = []) ∧
      ∀ addr b, (build (Bytecode.decode version naming script)).blockAt? addr = some b ↔
        b ∈ (build (Bytecode.decode version naming script)).blocks ∧ b.entry = addr := by
  have htiles := tiles_build (Bytecode.decode_placed version naming script)
  refine ⟨htiles, ⟨?_, ?_⟩, fun addr b => htiles.blockAt?_eq_some_iff⟩
  · intro hnil
    rw [hnil] at htiles
    exact List.eq_nil_of_length_eq_zero htiles.symm
  · rintro rfl
    cases hb : (build (Bytecode.decode version naming [])).blocks with
    | nil => rfl
    | cons b rest =>
      obtain ⟨x, -, -, hlt, hle⟩ := htiles.bounds b (hb ▸ List.mem_cons_self ..)
      exact absurd hle (by simp; omega)

end Rio.BlockGraph
