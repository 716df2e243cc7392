import Rio.Screenplay.Scenery

/-!
# Animation

Key frames collect in the pictures they move until a play draws them. Scripts guard animations by
a branch on the player not skipping; with the detection on, only what is guarded in that way, or
stands at the unconditional start of the script, is animated.
-/

namespace Rio.Screenplay

open Renpy (AnimationDoubt)
open Stage (FrameKind)

/-- Whether a branch lets an animation run: only if it is on the player not skipping. -/
def branchDoubt? (c : Context) (i : Instruction) : Option AnimationDoubt :=
  if !(i.int? 0).any c.isSkipFlag then some .otherCondition
  else if i.int? 1 != some 0 then some .skipOnly
  else none

/-- Why the block with a predecessor is not animated, if so. -/
def predecessorDoubt? (c : Context) (predecessor : Nat) : Option AnimationDoubt :=
  match (c.graph.blockAt? predecessor).filter (·.kind == .conditional) with
  | none => some .unconditional
  | some block =>
    match (block.instructions c.instructions).getLast? with
    | none => some .noBranch
    | some last => if last.mnemonic.isConditional then branchDoubt? c last else some .noBranch

/-- Why a key frame at an address is not animated, if so. -/
def animationDoubt? (c : Context) (addr : Nat) : Option AnimationDoubt :=
  match c.graph.blockContaining? addr with
  | none => some .outsideBlocks
  | some block =>
    match block.predecessors with
    | [] => if block.entry == 0 then none else some .unreachedBlock
    | [predecessor] =>
      if block.entry == 0 then some .startReached else predecessorDoubt? c predecessor
    | _ => if block.entry == 0 then some .startReached else some .manyPredecessors

/-- Moves the background. -/
def moveBackground (s : State) (kind : FrameKind) (m : Motion) : State :=
  match s.stage.background with
  | some p =>
    { s with stage := { s.stage with
        background := some (p.addFrame kind m.dx m.dy m.ms m.fade), backgroundRedraw := true } }
  | none => s.remark .missingBackground

/-- Moves the foreground in a place that may be no place. -/
def moveForeground (s : State) (addr : Nat) (kind : FrameKind) (index : Int) (m : Motion) : Step :=
  match if 0 ≤ index then s.stage.foreground? index.toNat else none with
  | none => .ok (s.remark (.clearedForeground index))
  | some slot =>
    match slot.figure.addFrame kind m.dx m.dy m.ms m.fade with
    | .ok figure =>
      .ok { s with stage := { s.stage.setForeground index.toNat { slot with figure } with
        foregroundRedraw := true } }
    | .error cause => s.halt (.figure addr cause)

/-- Adds a key frame: 0 is the background and any other number the foreground before it, by a
hundred more if it is a shake. -/
def addMotion (s : State) (addr : Nat) (m : Motion) : Step :=
  if m.target == 0 then .ok (moveBackground s .linear m)
  else if m.target == 100 then .ok (moveBackground s .shake m)
  else if m.target > 100 then moveForeground s addr .shake (m.target - 101) m
  else moveForeground s addr .linear (m.target - 1) m

/-- A key frame. Its operands matter only if it is animated. -/
def keyFrame (c : Context) (s : State) (i : Instruction) (motion : Option Motion) : Step :=
  match if c.profile.detectAnimationSkip then animationDoubt? c i.addr else none with
  | some why => .ok (s.remark (.notAnimated why))
  | none =>
    match motion with
    | some m => addMotion s i.addr m
    | none => s.halt (.operands i.addr i.mnemonic)

/-- Whether an animation ends with the play before these instructions: what follows, dialogue aside,
belongs to none. -/
def animationEnds (rest : List Instruction) : Bool :=
  match rest.find? fun i => !i.mnemonic.isDialogue && i.mnemonic != .notTerminated with
  | none => true
  | some i => !(i.mnemonic.isKeyFrame || i.mnemonic.isPlay)

/-- A play: draws the stage at the end of an animation and waits inside it. -/
def play (c : Context) (s : State) (rest : List Instruction) : State :=
  if animationEnds rest then
    (draw c { s with stage := { s.stage with inSegment := false } }).2
  else
    let s := s.remark .playDelayed
    { s with stage := { s.stage with inSegment := true } }

end Rio.Screenplay
