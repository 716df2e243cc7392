import Rio.Bytecode.Instruction
import Rio.Renpy.Statement

/-!
# Commands

What an instruction asks for, read from its operands. An instruction may be one that has no part in
the generated script, or its operands may not fit; both are told apart from a command.
-/

namespace Rio.Screenplay

open Renpy (AssignOp)

/-- A conditional branch: the lines up to the address `close` depend on a comparison. -/
structure Branch where
  cmp : Comparison
  flag : Int
  value : Int
  close : Nat
deriving Repr, DecidableEq

/-- The right side of an assignment. -/
inductive Source where
  | immediate (value : Int)
  | flag (addr : Int)
  /-- The flag whose address is held by a flag. -/
  | through (addr : Int)
deriving Repr, DecidableEq

/-- Text that is said, and by whom, in the script's encoding. -/
structure Utterance where
  speaker : Option (List UInt8)
  text : List UInt8
deriving Repr, DecidableEq

/-- A key frame for the picture with a number. -/
structure Motion where
  target : Int
  dx : Int
  dy : Int
  ms : Int
  fade : Int
deriving Repr, DecidableEq

/-- A transition, by name or by a code that names none. -/
inductive Method where
  | named (t : Transition)
  | code (n : Int)
deriving Repr, DecidableEq

/-- The name of a method. -/
def Method.name : Method → String
  | named t => t.name
  | code n => toString n

/-- What an instruction asks for. Operands that are looked at only under a condition are optional:
that they do not fit matters only then. -/
inductive Command where
  | branch (b : Branch)
  | jump (target : Nat)
  | goto (script : List UInt8)
  | call (script : List UInt8)
  | ret
  | menu (choices : List MenuOption)
  | nothing
  | revealDuration (value : Int)
  | revealFromFlag (flag : Int)
  | assign (flag : Int) (op : AssignOp) (source : Source)
  | random (flag max : Int)
  | clearFlags
  | textSize (size : Int)
  | say
  | extend (text : List UInt8)
  | sleep (ms : Option Int)
  | eventName (name : List UInt8)
  | playMusic (file : List UInt8) (fadein : Int)
  | stopMusic (fadeout : Int)
  | playSound (channel : Nat) (file : List UInt8) (fadein repeats : Int)
  | playNowhere
  | stopSound (channel : Int) (fadeout : Option Int)
  | voice (file : List UInt8)
  | background (name : List UInt8) (x y : Int)
  | viewport (zoom xpan ypan : Int)
  | foreground (index : Nat) (name : List UInt8) (x y : Int) (untinted : Bool)
  | tint (index : Int)
  | object (name : List UInt8) (x y : Int)
  | clearForeground (index : Int)
  | clearObject
  | sideImage (name : List UInt8)
  | hideSideImage
  | mask (name : List UInt8)
  | weather (kind limit : Int)
  | screenEffect (kind duration magnitude : Int)
  | clearScreenEffect
  | video (file : List UInt8)
  | transition (method : Method) (ms : Int)
  | keyFrame (motion : Option Motion)
  | play
deriving Repr, DecidableEq

/-- What reading an instruction comes to. -/
inductive Reading where
  /-- The instruction has no part in the generated script. -/
  | unhandled
  /-- The operands do not fit. -/
  | malformed
  | command (c : Command)
deriving Repr, DecidableEq

/-- The flag that holds how long a line takes to appear. -/
def revealFlag : Int := 993

namespace Command

/-- A branch closes where it would go if the comparison fails. -/
def ofBranch (i : Instruction) (cmp : Comparison) : Option Command := do
  let flag ← i.int? 0
  let value ← i.int? 1
  let close ← addressOfInt? (i.next + (← i.int? 2))
  return .branch ⟨cmp, flag, value, close⟩

/-- The right side of an assignment: a number, or a flag if the operand before it says so. -/
def source? (i : Instruction) : Option Source := do
  let level ← i.int? 1
  let value ← i.int? 2
  return if level == 0 then .immediate value else .flag value

/-- The right side of an assignment that is one step further from a number. -/
def furtherSource? (i : Instruction) : Option Source := do
  let level ← i.int? 1
  let value ← i.int? 2
  return if level == 0 then .flag value else .through value

/-- An assignment to a flag. -/
def ofAssign (i : Instruction) (op : AssignOp) (source : Option Source) : Option Command := do
  return .assign (← i.int? 0) op (← source)

/-- Setting a flag; one flag is not a flag but a setting of the dialogue. -/
def ofMove (i : Instruction) : Option Command := do
  let flag ← i.int? 0
  if flag == revealFlag then
    match ← source? i with
    | .immediate value => return .revealDuration value
    | .flag value | .through value => return .revealFromFlag value
  else ofAssign i .set (source? i)

/-- The line that an instruction says. -/
def utterance? (i : Instruction) : Option Utterance :=
  match i.mnemonic with
  | .textN => (i.bytes? 1).map fun text => ⟨none, text⟩
  | .textNIo => (i.bytes? 2).map fun text => ⟨none, text⟩
  | .textC => do return ⟨some (← i.bytes? 1), ← i.bytes? 2⟩
  | _ => none

/-- A sound. Nothing is played on a negative channel, so its file is not looked at. -/
def ofSound (i : Instruction) : Option Command := do
  let channel ← i.int? 0
  let repeats ← i.int? 1
  let fadein ← i.int? 4
  if channel < 0 then return .playNowhere
  else return .playSound channel.toNat (← i.lastBytes?) fadein repeats

/-- A foreground in a numbered place. -/
def ofForeground (i : Instruction) (name : Option (List UInt8)) (untinted : Option Bool) :
    Option Command := do
  let name ← name
  let index ← i.int? 0
  let x ← i.int? 1
  let y ← i.int? 2
  let untinted ← untinted
  if index < 0 then none
  else return .foreground index.toNat name x y untinted

/-- The method of a transition. -/
def method? (i : Instruction) : Option Method :=
  match i.operands.head? with
  | some (.transition t) => some (.named t)
  | some (.int n) => some (.code n)
  | _ => none

/-- A key frame. -/
def motion? (i : Instruction) : Option Motion := do
  return ⟨← i.int? 0, ← i.int? 1, ← i.int? 2, ← i.int? 3, ← i.int? 5⟩

end Command

/-- A command if the operands fit. -/
def Reading.ofOption : Option Command → Reading
  | some c => command c
  | none => malformed

open Command in
/-- Reads an instruction. -/
def Reading.ofInstruction (i : Instruction) : Reading :=
  match i.mnemonic with
  | .jbe => ofOption (ofBranch i .ge)
  | .jle => ofOption (ofBranch i .le)
  | .jeq => ofOption (ofBranch i .eq)
  | .jne => ofOption (ofBranch i .ne)
  | .jbt => ofOption (ofBranch i .gt)
  | .jlt => ofOption (ofBranch i .lt)
  | .jmpOffset => ofOption (((i.int? 0).bind addressOfInt?).map Command.jump)
  | .goto => ofOption ((i.bytes? 0).map Command.goto)
  | .call => ofOption ((i.bytes? 0).map Command.call)
  | .ret => command .ret
  | .option => ofOption (i.options?.map Command.menu)
  | .eof | .eofIo => command .nothing
  | .mov => ofOption (ofMove i)
  | .add => ofOption (ofAssign i .add (source? i))
  | .sub => ofOption (ofAssign i .sub (source? i))
  | .movf => ofOption (ofAssign i .set (furtherSource? i))
  | .mod => ofOption (ofAssign i .mod (source? i))
  | .rnd => ofOption do return .random (← i.int? 0) (← i.int? 2)
  | .clr => command .clearFlags
  | .textSizeModifier => ofOption ((i.int? 0).map Command.textSize)
  | .textN | .textC | .textNIo => command .say
  | .textExtend => ofOption ((i.bytes? 1).map Command.extend)
  | .sleep => command (.sleep (i.int? 0))
  | .eventName => ofOption ((i.bytes? 0).map Command.eventName)
  | .bgm | .bgmNoarg3 | .bgmIo => ofOption do return .playMusic (← i.lastBytes?) (← i.int? 1)
  | .bgmStop => ofOption ((i.int? 1).map Command.stopMusic)
  | .se | .seNoarg8 | .seIo => ofOption (ofSound i)
  | .seStop => ofOption do return .stopSound (← i.int? 0) none
  | .seFadeout => ofOption do return .stopSound (← i.int? 0) (some (← i.int? 1))
  | .voice => ofOption (i.lastBytes?.map Command.voice)
  | .bg => ofOption do return .background (← i.bytes? 5) (← i.int? 0) (← i.int? 1)
  | .bgVp => ofOption do return .viewport (← i.int? 0) (← i.int? 1) (← i.int? 2)
  | .fg => ofOption (ofForeground i (i.bytes? 7) ((i.int? 6).map (· != 0)))
  | .fgNoarg7 => ofOption (ofForeground i (i.bytes? 6) (some false))
  | .tint | .tintIo => ofOption ((i.int? 0).map Command.tint)
  | .obj => ofOption do return .object (← i.bytes? 5) (← i.int? 0) (← i.int? 1)
  | .layer1Cl => ofOption ((i.int? 0).map Command.clearForeground)
  | .objCl => command .clearObject
  | .sideImage => ofOption ((i.bytes? 0).map Command.sideImage)
  | .hideSideImage => command .hideSideImage
  | .setTransMask => ofOption ((i.bytes? 0).map Command.mask)
  | .weather => ofOption do return .weather (← i.int? 0) (← i.int? 1)
  | .screenEffect => ofOption do return .screenEffect (← i.int? 0) (← i.int? 1) (← i.int? 2)
  | .clearScreenEffect => command .clearScreenEffect
  | .video => ofOption ((i.bytes? 1).map Command.video)
  | .transition | .transitionIo => ofOption do return .transition (← method? i) (← i.int? 1)
  | .addAnimationKeyFrame => command (.keyFrame (motion? i))
  | .playAnimation | .playAnimationNoskip => command .play
  | _ => unhandled

end Rio.Screenplay
