import Rio.Proofs.BlockGraph.Leaders
import Rio.Proofs.Screenplay.KeyFrames
import Rio.Proofs.Screenplay.Remarks

/-!
# Doubts that never arise

The detection of animations asks the graph for the block of a key frame, for the block before it,
and for the branch that ends that block. It has an answer ready for each question that the graph
might leave open. For the graph of a script some of these answers are never given:

* every instruction lies in a block, so no key frame is outside of all blocks;
* whatever a block records as its predecessor is a block;
* if no branch or jump leads into the middle of an instruction, a block that branches ends with
  its branch (`getLast?_of_conditional`), so none is found without one.

`transpile_unfounded` says that the comments are never written either, since a comment about an
animation has the reason that the detection gave (`remarks_of_outcome`).
-/

namespace Rio

namespace BlockGraph

variable {stop : Nat} {l : List Instruction} {b : Block}

/-- A block that branches ends with its branch. The block starts at an instruction, so it has
one. -/
theorem getLast?_of_conditional (hl : Bytecode.Placed stop 0 l) (haligned : Aligned l stop)
    (hb : b ∈ (build l).blocks) (hkind : b.kind = .conditional) :
    ∃ i, (b.instructions l).getLast? = some i ∧ i.mnemonic.isConditional = true ∧
      b.exit = some i.next := by
  obtain ⟨x, hx, -, hlt, -⟩ := (tiles_build hl).bounds b hb
  obtain ⟨j, hj, hentry⟩ :=
    exists_addr_of_mem_leaders hl haligned (Or.inl (entry_mem_leaders hl haligned hb))
  have hmem : j ∈ b.instructions l := by
    rw [instructions_eq hl.sorted hx]
    exact List.mem_filter.mpr ⟨hj, by simp only [Bool.and_eq_true, decide_eq_true_eq]; omega⟩
  cases hlast : (b.instructions l).getLast? with
  | none =>
    rw [List.getLast?_eq_none_iff.mp hlast] at hmem
    cases hmem
  | some i =>
    obtain ⟨target, hflow, hexit, -⟩ := branch_of_getLast? hl hb hkind hlast
    exact ⟨i, rfl, Instruction.isConditional_of_close? (Screenplay.flow?_eq_branch hflow), hexit⟩

end BlockGraph

namespace Screenplay

open Renpy (AnimationDoubt Remark)

variable {c : Context}

/-! ## What the detection can find -/

/-- A branch that is doubted is there. -/
theorem branchDoubt?_cases {i : Instruction} {why : AnimationDoubt}
    (h : branchDoubt? c i = some why) :
    why = .otherCondition ∨ why = .skipOnly := by
  unfold branchDoubt? at h
  split at h
  · exact .inl (Option.some.inj h).symm
  · split at h
    · exact .inr (Option.some.inj h).symm
    · cases h

/-- No branch is found only at the end of a block that branches. -/
theorem predecessorDoubt?_cases {e : Nat} {why : AnimationDoubt}
    (h : predecessorDoubt? c e = some why) :
    why = .unconditional ∨ why = .otherCondition ∨ why = .skipOnly ∨
      (why = .noBranch ∧ ∃ p ∈ c.graph.blocks, p.kind = .conditional ∧
        ∀ i, (p.instructions c.instructions).getLast? = some i →
          i.mnemonic.isConditional = false) := by
  unfold predecessorDoubt? at h
  split at h
  · exact .inl (Option.some.inj h).symm
  · next p hp =>
    obtain ⟨hfound, hkind⟩ := Option.filter_eq_some_iff.mp hp
    have hmem : p ∈ c.graph.blocks := List.mem_of_find?_eq_some hfound
    have hcond : p.kind = .conditional := beq_iff_eq.mp hkind
    split at h
    · next hlast =>
      refine .inr (.inr (.inr ⟨(Option.some.inj h).symm, p, hmem, hcond, fun i hi => ?_⟩))
      rw [hlast] at hi
      cases hi
    · next last hlast =>
      split at h
      · exact .inr ((branchDoubt?_cases h).imp id .inl)
      · next hnot =>
        refine .inr (.inr (.inr ⟨(Option.some.inj h).symm, p, hmem, hcond, fun i hi => ?_⟩))
        rw [← Option.some.inj (hlast.symm.trans hi)]
        exact Bool.eq_false_iff.mpr hnot

/-- No block is found only where there is none. -/
theorem animationDoubt?_cases {addr : Nat} {why : AnimationDoubt}
    (h : animationDoubt? c addr = some why) :
    (why = .outsideBlocks ∧ c.graph.blockContaining? addr = none) ∨ why = .unreachedBlock ∨
      why = .startReached ∨ why = .manyPredecessors ∨ ∃ e, predecessorDoubt? c e = some why := by
  unfold animationDoubt? at h
  split at h
  · next hnone => exact .inl ⟨(Option.some.inj h).symm, hnone⟩
  · split at h
    · split at h
      · cases h
      · exact .inr (.inl (Option.some.inj h).symm)
    · next e _ =>
      split at h
      · exact .inr (.inr (.inl (Option.some.inj h).symm))
      · exact .inr (.inr (.inr (.inr ⟨e, h⟩)))
    · split at h
      · exact .inr (.inr (.inl (Option.some.inj h).symm))
      · exact .inr (.inr (.inr (.inl (Option.some.inj h).symm)))

theorem blockContaining?_of_outsideBlocks {addr : Nat}
    (h : animationDoubt? c addr = some .outsideBlocks) :
    c.graph.blockContaining? addr = none := by
  rcases animationDoubt?_cases h with ⟨-, hnone⟩ | heq | heq | heq | ⟨e, he⟩
  · exact hnone
  · cases heq
  · cases heq
  · cases heq
  · rcases predecessorDoubt?_cases he with heq | heq | heq | ⟨heq, -⟩ <;> cases heq

theorem exists_of_noBranch {addr : Nat} (h : animationDoubt? c addr = some .noBranch) :
    ∃ p ∈ c.graph.blocks, p.kind = .conditional ∧
      ∀ i, (p.instructions c.instructions).getLast? = some i →
        i.mnemonic.isConditional = false := by
  rcases animationDoubt?_cases h with ⟨heq, -⟩ | heq | heq | heq | ⟨e, he⟩
  · cases heq
  · cases heq
  · cases heq
  · cases heq
  · rcases predecessorDoubt?_cases he with heq | heq | heq | ⟨-, hp⟩
    · cases heq
    · cases heq
    · cases heq
    · exact hp

/-- A doubt is about a key frame, which has bytes of its own. -/
theorem exists_of_notAnimated {why : AnimationDoubt} {i : Instruction}
    (h : RemarkedBy c i (.notAnimated why)) :
    animationDoubt? c i.addr = some why ∧ i.IsProper := by
  cases h with
  | @command command _ hread hnotes hfounded =>
    refine ⟨hfounded why rfl, ?_⟩
    cases command with
    | keyFrame motion =>
      have hfrom := isFrom_of_command hread
      unfold Instruction.IsProper
      cases hm : i.mnemonic with
      | addAnimationKeyFrame => decide
      | _ =>
        rw [hm] at hfrom
        cases hfrom
    | _ => cases hnotes

end Screenplay

open Screenplay

/-- A script never says that an instruction is outside of every block, and what a block records as
its predecessor is found. If no branch or jump leads into the middle of an instruction, every
block that branches ends with its branch, and a script never says that one does not. -/
theorem transpile_unfounded (name : String) (script : List UInt8) (profile : Profile) :
    let l := Bytecode.decode profile.version true script
    let g := BlockGraph.build l
    .notAnimated .outsideBlocks ∉ (transpile name script profile).document.remarks ∧
    (∀ b ∈ g.blocks, ∀ e ∈ b.predecessors, ∃ p, g.blockAt? e = some p) ∧
    (BlockGraph.Aligned l script.length →
      (∀ b ∈ g.blocks, b.kind = .conditional →
        ∃ i, (b.instructions l).getLast? = some i ∧ i.mnemonic.isConditional = true ∧
          b.exit = some i.next) ∧
      .notAnimated .noBranch ∉ (transpile name script profile).document.remarks) := by
  intro l g
  have hl : Bytecode.Placed script.length 0 l := Bytecode.decode_placed profile.version true script
  have htiles : BlockGraph.Tiles 0 g.blocks script.length := BlockGraph.tiles_build hl
  -- a doubt in the script is one of the detection
  have hdoubts : ∀ why, .notAnimated why ∈ (transpile name script profile).document.remarks →
      ∃ i ∈ l, animationDoubt? (scriptContext name script profile) i.addr = some why ∧
        i.IsProper := by
    intro why hmem
    rcases remarks_of_outcome (outcome_transpile name script profile) _ hmem
      with h | h | ⟨i, hi, hby⟩
    · cases h
    · cases h
    · exact ⟨i, hi, exists_of_notAnimated hby⟩
  refine ⟨fun hmem => ?_, fun b hb e he => ?_, fun haligned => ?_⟩
  · obtain ⟨i, hi, hdoubt, hproper⟩ := hdoubts _ hmem
    have hlen := hl.len_pos i hi hproper
    have hnext := hl.next_le i hi
    unfold Instruction.next at hnext
    have hend := htiles.blockContaining?_eq_none_iff.mp (blockContaining?_of_outsideBlocks hdoubt)
    omega
  · obtain ⟨p, hp, hentry⟩ := BlockGraph.exists_of_mem_predecessors hl hb he
    exact ⟨p, htiles.blockAt?_eq_some_iff.mpr ⟨hp, hentry⟩⟩
  · have hlast : ∀ b ∈ g.blocks, b.kind = .conditional → ∃ i, (b.instructions l).getLast? = some i ∧
        i.mnemonic.isConditional = true ∧ b.exit = some i.next := fun b hb hkind =>
      BlockGraph.getLast?_of_conditional hl haligned hb hkind
    refine ⟨hlast, fun hmem => ?_⟩
    obtain ⟨i, hi, hdoubt, -⟩ := hdoubts _ hmem
    obtain ⟨p, hp, hkind, hnone⟩ := exists_of_noBranch hdoubt
    obtain ⟨branch, hbranch, hcond, -⟩ := hlast p hp hkind
    rw [hnone branch hbranch] at hcond
    cases hcond

/-- The test of an animation ends its block, at the address where the animation starts. -/
theorem unfounded_of_guardedMotion :
    BlockGraph.Aligned (Bytecode.decode .standard true (guardedMotion 4)) (guardedMotion 4).length ∧
    (∃ b ∈ (BlockGraph.build (Bytecode.decode .standard true (guardedMotion 4))).blocks,
      b.kind = .conditional ∧
      ∃ i, (b.instructions (Bytecode.decode .standard true (guardedMotion 4))).getLast? = some i ∧
        i.mnemonic.isConditional = true ∧ i.next = 25) ∧
    .notAnimated .noBranch ∉ (transpile "a" (guardedMotion 4) {}).document.remarks := by
  have haligned : BlockGraph.Aligned (Bytecode.decode .standard true (guardedMotion 4))
      (guardedMotion 4).length := by
    unfold BlockGraph.Aligned
    decide +kernel
  have hblock : ⟨0, some 25, .conditional, some 25, some 41, [], []⟩
      ∈ (scriptContext "a" (guardedMotion 4) {}).graph.blocks := by
    rw [scriptContext_guardedMotion 4 (by decide)]
    exact List.mem_cons_self
  obtain ⟨-, -, hunfounded⟩ := transpile_unfounded "a" (guardedMotion 4) {}
  obtain ⟨hlast, hnever⟩ := hunfounded haligned
  obtain ⟨i, hi, hcond, hexit⟩ := hlast _ hblock rfl
  exact ⟨haligned, ⟨_, hblock, rfl, i, hi, hcond, (Option.some.inj hexit).symm⟩, hnever⟩

end Rio
