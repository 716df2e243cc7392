import Rio.Renpy.Statement

/-!
# Remarks

The comments of a generated script: what an instruction was, and what became of it where that is not
plain from the statements.
-/

namespace Rio.Renpy

/-- Why a key frame is not animated. -/
inductive AnimationDoubt where
  | outsideBlocks
  | unreachedBlock
  | startReached
  | unconditional
  | noBranch
  | otherCondition
  | skipOnly
  | manyPredecessors
deriving Repr, DecidableEq

/-- The wording of a doubt. -/
def AnimationDoubt.text : AnimationDoubt → String
  | outsideBlocks => "[warning:animation] Instruction is outside of every basic block."
  | unreachedBlock =>
    "[warning:animation] Potential broken block: no predecessors and not the start block."
  | startReached =>
    "[warning:animation] Potential broken block: the start block has predecessors."
  | unconditional =>
    "[unimplemented:animation] Block's predecessor is not a conditional block."
  | noBranch =>
    "[warning:animation] Potential broken block: conditional block does not end with a " ++
      "conditional branch."
  | otherCondition => "[animation] Ignoring unknown conditioned animation"
  | skipOnly => "[animation] Ignoring skip-only animation"
  | manyPredecessors => "[unimplemented:animation] Multiple predecessors found for this block."

/-- A comment of a generated script. -/
inductive Remark where
  | generated
  | interrupted
  /-- The listing of an instruction that is about to be dealt with. -/
  | listing (line : String)
  | unhandled (line : String)
  | skipStart (index : Nat)
  | skipEnd (index : Nat)
  | unmappedFlag (addr : Int)
  | hintedBranch (reference : String) (cmp : Comparison) (value : Int)
  | inaccessibleBranch (flag : Int)
  | hintedChoice (reference : String)
  | inaccessibleChoice (flag : Nat)
  | hintedSource (level : Nat) (value : Int)
  | hintedAssign (reference : String) (op : AssignOp) (value : String)
  | droppedAssign (reference : String) (op : AssignOp)
  | revealDuration (value : Int)
  | revealFromFlag (flag : Int)
  | saidUnderMenu
  | unknownTextSize (size : Int)
  | pauseInlined
  | registerChannel (channel : Int)
  | negativeChannel
  | viewportWithoutBackground
  | replacementInhibited
  | clearForeground (index : Int)
  | clearObject
  | maskSet (mask : String)
  | unknownWeather (kind : Int)
  | unknownScreenEffect (kind : Int)
  | needsGfxNext (transition : String)
  | unknownTransition (method time : String)
  | notAnimated (why : AnimationDoubt)
  | missingBackground
  | clearedForeground (index : Int)
  | playDelayed
  /-- A comment that was given as text. -/
  | verbatim (text : String)
deriving Repr, DecidableEq

/-- The wording of a remark. -/
def Remark.text : Remark → String
  | generated => "Generated by rio2rpy, edit with caution."
  | interrupted => "[panic] Translation interrupted. See log."
  | listing line => "[cmd] " ++ line
  | unhandled line => "[cmd:unhandled] " ++ line
  | skipStart index => "[adult] Begin #" ++ toString index
  | skipEnd index => "[adult] End #" ++ toString index
  | unmappedFlag addr =>
    "[warning:flag] Access to unmapped flag address " ++ toString addr
  | hintedBranch reference cmp value =>
    "[jmp] if " ++ reference ++ " " ++ cmp.symbol ++ " " ++ toString value ++ ": ..."
  | inaccessibleBranch flag =>
    "[warning:jmp] Attempt to access inaccessible flag " ++ toString flag ++
      " in conditional. Evaluating to false."
  | hintedChoice reference => "[option] visible if " ++ reference ++ " != 0"
  | inaccessibleChoice flag =>
    "[warning:option] Flag " ++ toString flag ++ " is inaccessible. Option will always be shown."
  | hintedSource level value =>
    "[set:reflevel=" ++ toString level ++ "] rside = " ++ toString value
  | hintedAssign reference op value => "$ " ++ reference ++ " " ++ op.symbol ++ " " ++ value
  | droppedAssign reference op =>
    "[warning:set] Right side of `" ++ reference ++ " " ++ op.symbol ++
      "` is inaccessible. Assignment dropped."
  | revealDuration value => "[say] Typewriter effect duration = " ++ toString value
  | revealFromFlag flag =>
    "[warning:mov] Typewriter effect duration taken from flag " ++ toString flag ++ ". Ignored."
  | saidUnderMenu => "[say] Added under the next menu."
  | unknownTextSize size => "[warning:say] Unknown text size modifier " ++ toString size
  | pauseInlined => "[sleep] Inlined into previous CPS say."
  | registerChannel channel =>
    "[patch:sound_channel.rpy] renpy.music.register_channel('" ++ channelName channel ++
      "', 'sfx', False)"
  | negativeChannel => "[warning:se] Sound channel is < 0"
  | viewportWithoutBackground => "[warning:bg_vp] No background to apply the viewport to."
  | replacementInhibited =>
    "[animation] Image replacement inhibited by in-progress animation segment."
  | clearForeground index => "[layer1] cl " ++ toString index
  | clearObject => "[obj] cl"
  | maskSet mask => "[gfx] trans_mask = " ++ mask
  | unknownWeather kind => "[weather] Unhandled type " ++ toString kind
  | unknownScreenEffect kind => "[screen_effect] Ignoring unknown type " ++ toString kind
  | needsGfxNext transition =>
    "[warning:transition] " ++ transition ++
      " requires use_gfx_next, which is disabled. Substitute with dissolve."
  | unknownTransition method time =>
    "[warning:transition] unknown method " ++ method ++ ", time: " ++ time ++
      ". Substitute with dissolve."
  | notAnimated why => why.text
  | missingBackground =>
    "[warning:animation] Attempting to animate a missing background. Ignored."
  | clearedForeground index =>
    "[warning:animation] Attempting to manipulate cleared displayable fg#" ++ toString index ++
      ". Ignored."
  | playDelayed =>
    "[animation] Play inside a detected animation segment. Delaying gfx commit to the last play " ++
      "instruction."
  | verbatim text => text

end Rio.Renpy
