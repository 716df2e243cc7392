import Rio.Proofs.BlockGraph.Predecessors
import Rio.Proofs.BlockGraph.Queries
import Rio.Proofs.Screenplay.ControlFlow
import Rio.Proofs.Screenplay.FlagUse

/-!
# Which key frames are animated

Scripts guard their animations by `if skipping == 0:`. With the detection on, a key frame moves
something only if its block is reached by such a test, or is the start of the script:

> `transpile_keyFrames`: a key frame moves something exactly if its block is the start of the script
> and nothing leads back there, or if the only branch to its block is one that compares `skipping`
> with zero. Any other key frame leaves the stage as it is and becomes a comment.

The test is not looked at more closely. It may be any comparison, so an animation may also stand
under `skipping != 0`, which is for players who do skip. And the block may be on either side of
the branch: the way from the guarded block into the one behind it is not recorded as a branch, so
that block, which is run in any case, has the test as its only predecessor. Both are animated
(`keyFrames_unguarded`). Where the test is `skipping == 0` and holds, control comes from nowhere
else (`SkipTest.behind`).

What the detection finds is related to the graph: the last instruction of a block that branches is
its branch (`branch_of_getLast?`), and whoever branches to a block is recorded there
(`mem_predecessors`).
-/

namespace Rio

namespace Screenplay

variable {c : Context}

/-- A branch `test` at the end of `p` compares `skipping` with zero, on one of its sides is `b`,
and no other branch or jump leads to `b`. -/
structure SkipTest (c : Context) (p : Block) (test : Instruction) (b : Block) : Prop where
  mem : p ∈ c.graph.blocks
  kind : p.kind = .conditional
  exit : p.exit = some test.next
  last : (p.instructions c.instructions).getLast? = some test
  flag : (test.int? 0).any c.isSkipFlag = true
  value : test.int? 1 = some 0
  notStart : b.entry ≠ 0
  predecessors : b.predecessors = [p.entry]
  leads : test.next = b.entry ∨ test.close? = some b.entry
  apart : test.close? ≠ some test.next
  only : ∀ q ∈ c.graph.blocks, q.BranchesTo b.entry → q = p
  /-- Where the comparison holds, control does not come from another block either. -/
  behind : test.next = b.entry → ∀ q ∈ c.graph.blocks, q.exit = some b.entry → q = p

/-- The block that a script starts with, if nothing leads back there. -/
def OnlyStart (b : Block) : Prop :=
  b.entry = 0 ∧ b.predecessors = []

/-! ## The detection -/

/-- The branch has to test the flag of skipping, for being zero. -/
theorem branchDoubt?_eq_none_iff {i : Instruction} :
    branchDoubt? c i = none ↔ (i.int? 0).any c.isSkipFlag = true ∧ i.int? 1 = some 0 := by
  unfold branchDoubt?
  cases (i.int? 0).any c.isSkipFlag with
  | false => simp
  | true => simp

/-- The block before has to end in such a branch. -/
theorem predecessorDoubt?_eq_none_iff {e : Nat} :
    predecessorDoubt? c e = none ↔ ∃ p test, c.graph.blockAt? e = some p ∧ p.kind = .conditional ∧
      (p.instructions c.instructions).getLast? = some test ∧ test.mnemonic.isConditional = true ∧
      (test.int? 0).any c.isSkipFlag = true ∧ test.int? 1 = some 0 := by
  unfold predecessorDoubt?
  constructor
  · intro h
    split at h
    · cases h
    · next p hp =>
      obtain ⟨hfound, hkind⟩ := Option.filter_eq_some_iff.mp hp
      split at h
      · cases h
      · next test hlast =>
        split at h
        · next hcond =>
          exact ⟨p, test, hfound, beq_iff_eq.mp hkind, hlast, hcond, branchDoubt?_eq_none_iff.mp h⟩
        · cases h
  · rintro ⟨p, test, hfound, hkind, hlast, hcond, htest⟩
    have hfilter : (c.graph.blockAt? e).filter (·.kind == .conditional) = some p := by
      rw [Option.filter_eq_some_iff]
      exact ⟨hfound, beq_iff_eq.mpr hkind⟩
    rw [hfilter]
    dsimp only
    rw [hlast]
    dsimp only
    rw [if_pos hcond]
    exact branchDoubt?_eq_none_iff.mpr htest

/-- There is no doubt at the start of a script, nor behind a single block that passes the test. -/
theorem animationDoubt?_eq_none_iff {addr : Nat} {b : Block}
    (hb : c.graph.blockContaining? addr = some b) :
    animationDoubt? c addr = none ↔ OnlyStart b ∨
      ∃ e, b.entry ≠ 0 ∧ b.predecessors = [e] ∧ predecessorDoubt? c e = none := by
  unfold animationDoubt? OnlyStart
  rw [hb]
  dsimp only
  by_cases hentry : b.entry = 0
  · cases b.predecessors with
    | nil => simp [hentry]
    | cons e others => cases others <;> simp [hentry]
  · cases b.predecessors with
    | nil => simp [hentry]
    | cons e others => cases others <;> simp [hentry]

section

variable {stop : Nat} (hl : Bytecode.Placed stop 0 c.instructions)
  (hgraph : c.graph = BlockGraph.build c.instructions)

include hl hgraph

/-- What the detection finds is a test of `skipping`. -/
theorem skipTest_iff {b : Block} (hb : b ∈ c.graph.blocks) :
    (∃ p test, SkipTest c p test b) ↔
      ∃ e, b.entry ≠ 0 ∧ b.predecessors = [e] ∧ predecessorDoubt? c e = none := by
  have htiles : BlockGraph.Tiles 0 c.graph.blocks stop := hgraph ▸ BlockGraph.tiles_build hl
  constructor
  · rintro ⟨p, test, h⟩
    obtain ⟨target, hflow, -⟩ := BlockGraph.branch_of_getLast? hl (hgraph ▸ h.mem) h.kind h.last
    -- only a branch has an address where it closes
    have hcond : test.mnemonic.isConditional = true := by
      by_contra hcond
      have hclose := flow?_eq_branch hflow
      rw [Instruction.close?, if_neg hcond] at hclose
      cases hclose
    refine ⟨p.entry, h.notStart, h.predecessors, predecessorDoubt?_eq_none_iff.mpr ?_⟩
    exact ⟨p, test, htiles.blockAt?_eq_some_iff.mpr ⟨h.mem, rfl⟩, h.kind, h.last, hcond,
      h.flag, h.value⟩
  · rintro ⟨e, hentry, hpreds, hdoubt⟩
    obtain ⟨p, test, hfound, hkind, hlast, -, hflag, hvalue⟩ :=
      predecessorDoubt?_eq_none_iff.mp hdoubt
    obtain ⟨hp, rfl⟩ := htiles.blockAt?_eq_some_iff.mp hfound
    obtain ⟨target, hflow, hexit, htrue, hfalse⟩ :=
      BlockGraph.branch_of_getLast? hl (hgraph ▸ hp) hkind hlast
    -- the branch is recorded once, so it leads to the block once
    have hexplains := BlockGraph.explains_build hl (hgraph ▸ hp) (hgraph ▸ hb)
    unfold Block.Explains at hexplains
    rw [hkind, hpreds, htrue, hfalse] at hexplains
    have honce : [some test.next, some target].count (some b.entry) = 1 :=
      hexplains.symm.trans (by simp)
    refine ⟨p, test, hp, hkind, hexit, hlast, hflag, hvalue, hentry, hpreds, ?_, ?_, ?_, ?_⟩
    · rw [flow?_eq_branch hflow]
      have hmem : some b.entry ∈ [some test.next, some target] := List.count_pos_iff.mp (by omega)
      simpa [eq_comm] using hmem
    · rw [flow?_eq_branch hflow]
      intro heq
      rw [heq] at honce
      by_cases hnext : test.next = b.entry <;> simp [hnext] at honce
    · -- any other branch would be recorded too
      intro q hq hto
      have hmem := BlockGraph.mem_predecessors hl (hgraph ▸ hq) (hgraph ▸ hb) hto
      rw [hpreds, List.mem_singleton] at hmem
      exact htiles.entry_inj q hq p hp hmem
    · -- the block of the test ends right before this one, and no two blocks end at one address
      intro hnext q hq hqexit
      exact htiles.exit_inj hq hp hqexit (hnext ▸ hexit)

end

/-! ## Moves of a run -/

/-- The state after some instructions. -/
def stateAt (c : Context) : Nat → List Instruction → State → State
  | n + 1, i :: rest, s => stateAt c n rest (outcome (step c s i rest))
  | _, _, s => s

/-- By induction on the number of steps. -/
theorem runs_stateAt {c : Context} {final : State} :
    ∀ {l : List Instruction} {s : State} {k : Nat} (_ : runFrom c s k l = .ok final) (n : Nat),
      Runs c l s (l.drop n) (stateAt c n l s)
  | _, _, _, _, 0 => by simpa [stateAt] using Runs.here
  | [], _, _, _, n + 1 => by simpa [stateAt] using Runs.here
  | i :: rest, s, k, hrun, n + 1 => by
    rw [runFrom] at hrun
    cases hstep : step c s i rest with
    | error halt =>
      rw [hstep] at hrun
      cases hrun
    | ok s' =>
      rw [hstep] at hrun
      rw [stateAt, hstep]
      exact Runs.trans (.step .here hstep) (runs_stateAt hrun n)

theorem runs_stateAt_of_isOk {c : Context} {l : List Instruction} {s : State} {k : Nat}
    (hok : (runFrom c s k l).isOk = true) (n : Nat) : Runs c l s (l.drop n) (stateAt c n l s) := by
  cases hrun : runFrom c s k l with
  | error stopped =>
    rw [hrun] at hok
    cases hok
  | ok final => exact runs_stateAt hrun n

/-- How many key frames the first foreground has. -/
def frameCount (s : State) : Nat :=
  (((s.stage.foreground? 0).bind (·.figure.picture?)).map (·.frames.length)).getD 0

/-- A run comes to a key frame at an address, and it moves the first foreground. -/
def MovesAt (c : Context) (addr : Nat) : Prop :=
  ∃ i rest s, Reached c (i :: rest) s ∧ i.mnemonic = .addAnimationKeyFrame ∧ i.addr = addr ∧
    frameCount (outcome (step c s i rest)) ≠ frameCount s

/-- A key frame moves something if a picture has one frame more after its step. -/
theorem movesAt_of_stateAt {c : Context} (hok : (runFrom c (start c) 0 c.instructions).isOk = true)
    {n : Nat} {i : Instruction} (heq : c.instructions.drop n = i :: c.instructions.drop (n + 1))
    (hi : i.mnemonic = .addAnimationKeyFrame)
    (hcount : frameCount
      (outcome (step c (stateAt c n c.instructions (start c)) i (c.instructions.drop (n + 1))))
        ≠ frameCount (stateAt c n c.instructions (start c))) :
    MovesAt c i.addr := by
  have hruns := runs_stateAt_of_isOk hok n
  rw [heq] at hruns
  exact ⟨i, _, _, hruns, hi, rfl, hcount⟩

end Screenplay

open Screenplay

/-- With the detection on, a key frame moves something exactly if its block is the start of the
script or lies behind a test of `skipping`; otherwise it becomes a comment and the stage stays as
it is. -/
theorem transpile_keyFrames (name : String) (script : List UInt8) (profile : Profile)
    (hdetect : profile.detectAnimationSkip = true) {i : Instruction} {rest : List Instruction}
    {s : State} (hs : Reached (scriptContext name script profile) (i :: rest) s)
    (hi : i.mnemonic = .addAnimationKeyFrame) :
    let c := scriptContext name script profile
    ∃ b ∈ c.graph.blocks, b.Covers i.addr ∧
      ((outcome (step c s i rest)).stage ≠ s.stage → OnlyStart b ∨ ∃ p test, SkipTest c p test b) ∧
      ((OnlyStart b ∨ ∃ p test, SkipTest c p test b) → ∃ motion, Command.motion? i = some motion ∧
        step c s i rest = addMotion (announce c (s.arrive c i rest) i) i.addr motion) ∧
      (¬(OnlyStart b ∨ ∃ p test, SkipTest c p test b) →
        ∃ why, step c s i rest = .ok
          ((announce c (s.arrive c i rest) i).remark (.notAnimated why))) := by
  intro c
  have hl : Bytecode.Placed script.length 0 c.instructions :=
    Bytecode.decode_placed profile.version true script
  have htiles : BlockGraph.Tiles 0 c.graph.blocks script.length := BlockGraph.tiles_build hl
  have hmem : i ∈ c.instructions := Runs.mem hs
  have hread : Reading.ofInstruction i = .command (.keyFrame (Command.motion? i)) := by
    rw [Reading.ofInstruction, hi]
  obtain ⟨motion, hmotion⟩ := Option.isSome_iff_exists.mp
    (isSome_of_keyFrame (Bytecode.decode_meets profile.version script i hmem) hread)
  -- a key frame has bytes, so it lies in a block
  have hproper : i.IsProper := by
    unfold Instruction.IsProper
    rw [hi]
    decide
  have hlen := hl.len_pos i hmem hproper
  have hnext := hl.next_le i hmem
  unfold Instruction.next at hnext
  obtain ⟨b, hb, hin⟩ := htiles.covers i.addr (Nat.zero_le _) (by omega)
  have hfound := htiles.blockContaining?_eq_some_iff.mpr ⟨hb, hin⟩
  have hdoubt : animationDoubt? c i.addr = none ↔ OnlyStart b ∨ ∃ p test, SkipTest c p test b := by
    rw [animationDoubt?_eq_none_iff hfound, skipTest_iff hl rfl hb]
  have hstep : step c s i rest = keyFrame c (announce c (s.arrive c i rest) i) i (some motion) := by
    rw [step_of_reading hread, hmotion]
    rfl
  have hdetect' : c.profile.detectAnimationSkip = true := hdetect
  have hplain : ¬(OnlyStart b ∨ ∃ p test, SkipTest c p test b) →
      ∃ why, step c s i rest = .ok
        ((announce c (s.arrive c i rest) i).remark (.notAnimated why)) := by
    intro hnot
    obtain ⟨why, hwhy⟩ := Option.ne_none_iff_exists'.mp (mt hdoubt.mp hnot)
    refine ⟨why, ?_⟩
    rw [hstep, keyFrame, if_pos hdetect', hwhy]
  refine ⟨b, hb, BlockGraph.contains_iff_covers.mp hin, ?_, ?_, hplain⟩
  · intro hmoved
    by_contra hnot
    obtain ⟨why, hwhy⟩ := hplain hnot
    rw [hwhy] at hmoved
    exact hmoved (stage_announce_arrive s i rest)
  · intro hanimated
    refine ⟨motion, hmotion, ?_⟩
    rw [hstep, keyFrame, if_pos hdetect', hdoubt.mpr hanimated]

/-- A foreground, and a branch that compares `skipping` with zero. -/
def testAfterShow (comparison offset : UInt8) : List UInt8 :=
  [0x48, 0, 0, 0, 0, 0, 0, 0, 0, 0, 0, 0, 0x46, 0, 0x01, comparison, 0xe6, 3, 0, 0,
    offset, 0, 0, 0, 0]

/-- A key frame for the foreground, and what plays it. -/
def playedMotion : List UInt8 :=
  [0x4b, 1, 0x90, 1, 0, 0, 0xf4, 1, 0, 0, 0, 0, 0, 0x4c, 0, 0, 0x0a, 0]

/-- The key frame, at an address. -/
def motionAt (addr : Nat) : Instruction :=
  ⟨addr, 13, some 0x4b, .addAnimationKeyFrame, [.int 1, .int 400, .int 0, .int 500, .int 0, .int 0]⟩

/-- An animation under the branch. -/
def guardedMotion (comparison : UInt8) : List UInt8 :=
  testAfterShow comparison 16 ++ playedMotion

/-- A pause under the branch, and an animation behind it. -/
def motionBehindGuard : List UInt8 :=
  testAfterShow 3 4 ++ [0x82, 100, 0, 0] ++ playedMotion

/-- The graph of a foreground and a test, a block under the test, and one behind it. -/
theorem scriptContext_guardedMotion : ∀ comparison ∈ [3, 4],
    scriptContext "a" (guardedMotion comparison) {}
      = ⟨{}, Unicode.toUpper "a", Bytecode.decode .standard true (guardedMotion comparison),
          ⟨[⟨0, some 25, .conditional, some 25, some 41, [], []⟩,
            ⟨25, some 41, .linear, some 41, none, [], [0]⟩,
            ⟨41, some 43, .leave, none, none, [], [0]⟩]⟩⟩ := by
  intro comparison h
  refine congrArg (Context.mk {} _ _) (BlockGraph.build_eq_of_perm ?_ (by decide))
  revert comparison
  decide +kernel

theorem scriptContext_motionBehindGuard :
    scriptContext "a" motionBehindGuard {}
      = ⟨{}, Unicode.toUpper "a", Bytecode.decode .standard true motionBehindGuard,
          ⟨[⟨0, some 25, .conditional, some 25, some 29, [], []⟩,
            ⟨25, some 29, .linear, some 29, none, [], [0]⟩,
            ⟨29, some 47, .leave, none, none, [], [0]⟩]⟩⟩ :=
  congrArg (Context.mk {} _ _) (BlockGraph.build_eq_of_perm (by decide +kernel) (by decide))

/-- The motion is carried out behind either comparison. -/
theorem movesAt_guardedMotion : ∀ comparison ∈ [3, 4],
    MovesAt (scriptContext "a" (guardedMotion comparison) {}) 25 := by
  intro comparison h
  rw [scriptContext_guardedMotion comparison h]
  refine movesAt_of_stateAt (n := 2) (i := motionAt 25) ?_ ?_ rfl ?_ <;>
  · revert comparison
    decide +kernel

/-- Under `skipping == 0` the key frame is animated, and the test that is found is that
comparison. -/
theorem keyFrames_of_guardedMotion :
    let c := scriptContext "a" (guardedMotion 3) {}
    ∃ i rest s, Reached c (i :: rest) s ∧ i.mnemonic = .addAnimationKeyFrame ∧
      (outcome (step c s i rest)).stage ≠ s.stage ∧
      ∃ b ∈ c.graph.blocks, b.Covers i.addr ∧ ∃ p test, SkipTest c p test b ∧
        test.mnemonic = .jeq := by
  intro c
  obtain ⟨i, rest, s, hs, hi, haddr, hcount⟩ := movesAt_guardedMotion 3 (by decide)
  have hmoved : (outcome (step c s i rest)).stage ≠ s.stage := fun heq =>
    hcount (by rw [frameCount, frameCount, heq])
  have hc : c = _ := scriptContext_guardedMotion 3 (by decide)
  have hstart : ∀ b ∈ c.graph.blocks, b.Covers 25 → b.entry ≠ 0 := by
    rw [hc]
    decide +kernel
  have hjeq : ∀ p ∈ c.graph.blocks, p.kind = .conditional →
      (p.instructions c.instructions).getLast?.map (·.mnemonic) = some .jeq := by
    rw [hc]
    decide +kernel
  obtain ⟨b, hb, hcovers, hanimated, -⟩ := transpile_keyFrames "a" (guardedMotion 3) {} rfl hs hi
  rcases hanimated hmoved with hfirst | ⟨p, test, htest⟩
  · exact absurd hfirst.1 (hstart b hb (haddr ▸ hcovers))
  · have hlast := hjeq p htest.mem htest.kind
    rw [htest.last] at hlast
    exact ⟨i, rest, s, hs, hi, hmoved, b, hb, hcovers, p, test, htest, Option.some.inj hlast⟩

/-- The key frame is animated also if the one branch to its block is on `skipping != 0`, and if
the block lies behind the guarded one, which then goes on in it. -/
theorem keyFrames_unguarded :
    let c := scriptContext "a" (guardedMotion 4) {}
    let d := scriptContext "a" motionBehindGuard {}
    (MovesAt c 25 ∧ ∀ b ∈ c.graph.blocks, b.Covers 25 → b.entry ≠ 0 ∧
      ∀ p ∈ c.graph.blocks, p.BranchesTo b.entry →
        (p.instructions c.instructions).getLast?.map (·.mnemonic) = some .jne) ∧
    MovesAt d 29 ∧ ∀ b ∈ d.graph.blocks, b.Covers 29 → b.entry ≠ 0 ∧
      (∀ p ∈ d.graph.blocks, p.BranchesTo b.entry → p.trueTarget ≠ some b.entry) ∧
      ∃ q ∈ d.graph.blocks, q.kind = .linear ∧ q.exit = some b.entry := by
  intro c d
  have hc : c = _ := scriptContext_guardedMotion 4 (by decide)
  have hd : d = _ := scriptContext_motionBehindGuard
  refine ⟨⟨movesAt_guardedMotion 4 (by decide), ?_⟩, ?_, ?_⟩
  · rw [hc]
    decide +kernel
  · rw [hd]
    exact movesAt_of_stateAt (n := 3) (i := motionAt 29) (by decide +kernel) (by decide +kernel) rfl
      (by decide +kernel)
  · rw [hd]
    decide +kernel

end Rio
