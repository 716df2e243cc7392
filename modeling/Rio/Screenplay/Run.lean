import Rio.Bytecode.Listing
import Rio.Screenplay.Animation
import Rio.Screenplay.Assignment
import Rio.Screenplay.Dialogue
import Rio.Screenplay.Sound
import Rio.Screenplay.Transition

/-!
# Running through a script

A screenplay is written in one pass over the instructions. Before each one the branches that end
there are closed and its label is set; then its command is carried out. A fault stops the pass,
and what was written so far is kept.
-/

namespace Rio.Screenplay

open Renpy (Document Label)

/-- Carries out a command of an instruction, followed by `rest`. -/
def execute (c : Context) (i : Instruction) (rest : List Instruction) (s : State) : Command → Step
  | .branch b => .ok (branch c s b)
  | .jump target => .ok (jump c s target)
  | .goto script => .ok (s.emit (.jump (.script (c.scriptName script))))
  | .call script => .ok (call c s script)
  | .ret => .ok (s.emit .ret)
  | .menu choices => menu c s choices
  | .nothing => .ok s
  | .revealDuration value =>
    .ok <| { s with revealDuration := value }.remark (.revealDuration value)
  | .revealFromFlag flag => .ok (s.remark (.revealFromFlag flag))
  | .assign flag op source => .ok (assign c s flag op source)
  | .random flag max => .ok (assignRandom c s flag max)
  | .clearFlags => .ok (clearFlags c s)
  | .textSize size => .ok { s with textSize := size }
  | .say => say c s i rest
  | .extend text => .ok (s.emit (.extend (c.dialogue text)))
  | .sleep ms => sleep s i ms
  | .eventName name => .ok (s.emit (.saveName (c.text name)))
  | .playMusic file fadein => .ok (s.emit (.playMusic (c.audio file "Bgm" ".OGG") fadein))
  | .stopMusic fadeout => .ok (s.emit (.stopMusic fadeout))
  | .playSound channel file fadein repeats => .ok (playSound c s channel file fadein repeats)
  | .playNowhere => .ok (s.remark .negativeChannel)
  | .stopSound channel fadeout => .ok (stopSound s channel fadeout)
  | .voice file => .ok (voice c s file)
  | .background name x y => .ok { s with stage := setBackground s.stage (c.text name) x y }
  | .viewport zoom xpan ypan => .ok (setViewport s zoom xpan ypan)
  | .foreground index name x y untinted =>
    showForeground s i.addr index (c.text name) x y untinted
  | .tint index => .ok { s with stage := { s.stage with tint := index } }
  | .object name x y => showObject s i.addr (c.text name) x y
  | .clearForeground index => .ok (clearForeground s index)
  | .clearObject => .ok (clearObject s)
  | .sideImage name => .ok (s.emit (.showSide (c.scriptName name)))
  | .hideSideImage => .ok (s.emit .hideSide)
  | .mask name => .ok (setMask s (c.text name))
  | .weather kind limit => .ok (weather c s kind limit)
  | .screenEffect kind duration magnitude => .ok (screenEffect s kind duration magnitude)
  | .clearScreenEffect => .ok (s.emit (.showMaster false))
  | .video file => .ok (s.emit (.movie (c.text file)))
  | .transition method ms => transition c s i.addr method ms
  | .keyFrame motion => keyFrame c s i motion
  | .play => .ok (play c s rest)

/-- Announces an instruction by its listing, in the reports and, if the profile asks, in the
script. -/
def announce (c : Context) (s : State) (i : Instruction) : State :=
  let line := i.listing c.profile.charset c.profile.readers
  let s := s.report .trace line
  if c.profile.includeListing then s.remark (.listing line) else s

/-- Deals with an instruction for which the branches are closed and the label is set. -/
def dispatch (c : Context) (s : State) (i : Instruction) (rest : List Instruction) : Step :=
  match Reading.ofInstruction i with
  | .unhandled => .ok (s.remark (.unhandled (i.listing c.profile.charset c.profile.readers)))
  | .malformed => (announce c s i).halt (.operands i.addr i.mnemonic)
  | .command command => execute c i rest (announce c s i) command

/-- One instruction, followed by `rest`. At the end of the script there may still be branches to
close and a label to set. -/
def step (c : Context) (s : State) (i : Instruction) (rest : List Instruction) : Step :=
  if i.mnemonic == .endOfStream then
    .ok ((s.closeBranches i.addr).placeLabel c i.addr)
  else
    let s := ((s.placeSkipMark c i.addr).closeBranches i.addr).placeLabel c i.addr
    let s := if waitsForMenu c i rest then { s with held := some i } else s
    dispatch c s i rest

/-- The instructions from the one numbered `index` on. A fault is given with the number of the
instruction that it arose in. -/
def runFrom (c : Context) (s : State) (index : Nat) : List Instruction → Except (Nat × Halt) State
  | [] => .ok s
  | i :: rest =>
    match step c s i rest with
    | .ok s => runFrom c s (index + 1) rest
    | .error halt => .error (index, halt)

/-- The state before the first instruction: the script's own label is set, and the goals of its
jumps need labels. -/
def start (c : Context) : State :=
  let goals := (c.graph.blocks.filter (·.kind == .jump)).filterMap (·.trueTarget)
  { document := (Document.comment {} .generated).header (.label (.script c.name))
    pendingLabels := goals }

end Rio.Screenplay

namespace Rio

/-- A generated script. A fault means that it is incomplete: it holds what was written before the
fault, and says so at its end. -/
structure Screenplay where
  document : Renpy.Document
  fault : Option Screenplay.Fault
  records : List Record

namespace Screenplay

/-- The text of a generated script. -/
def text (p : Screenplay) : String :=
  p.document.text

/-- Whether all of the script was gone through. -/
def isComplete (p : Screenplay) : Bool :=
  p.fault.isNone

/-- The screenplay of a script with a name, from its instructions and their block graph. -/
def ofInstructions (name : String) (instructions : List Instruction) (graph : BlockGraph)
    (profile : Profile) : Screenplay :=
  let c : Context := ⟨profile, Unicode.toUpper name, instructions, graph⟩
  match runFrom c (start c) 0 instructions with
  | .ok s => ⟨s.document.closeAll, none, s.records.toList⟩
  | .error (index, halt) =>
    let s := halt.state.report .error
      ("translation of " ++ c.name ++ " interrupted at instruction #" ++ toString index ++ ": " ++
        halt.fault.message)
    ⟨(s.document.comment .interrupted).statement .reportIncomplete, some halt.fault,
      s.records.toList⟩

end Screenplay

end Rio
