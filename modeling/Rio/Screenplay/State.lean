import Rio.BlockGraph.Basic
import Rio.Profile.Access
import Rio.Renpy.Document
import Rio.Stage.Basic

/-!
# The state of a screenplay in the making

A script is gone through instruction by instruction. What is fixed for the script is its context;
what changes from instruction to instruction is the state. Where an instruction cannot be followed
the run halts, and the state then holds what was written so far.
-/

namespace Rio.Screenplay

open Renpy (Document Statement Remark Label)

/-- Why a run halts. -/
inductive Fault where
  /-- Something on the screen cannot be changed as asked. -/
  | figure (addr : Nat) (cause : Stage.FigureFault)
  /-- The operands do not fit. -/
  | operands (addr : Nat) (mnemonic : Mnemonic)
  /-- A transition needs a mask and none has been set. -/
  | missingMask (addr : Nat) (transition : String)
  /-- What was held back for a menu is no dialogue. -/
  | notDialogue (addr : Nat) (mnemonic : Mnemonic)
deriving Repr, DecidableEq

/-- What is said of a fault. -/
def Fault.message : Fault → String
  | figure addr cause => Numeral.hexLiteral addr ++ ": " ++ cause.message
  | operands addr mnemonic =>
    Numeral.hexLiteral addr ++ ": malformed operands for `" ++ mnemonic.name ++ "`"
  | missingMask addr transition =>
    Numeral.hexLiteral addr ++ ": transition `" ++ transition ++
      "` needs a mask but none was set"
  | notDialogue addr mnemonic =>
    Numeral.hexLiteral addr ++ ": say held for a menu is `" ++ mnemonic.name ++ "`, not dialogue"

/-- An end of a range of scenes that lies in the script. -/
inductive SkipMark where
  | start (index : Nat) (insertTransition : Bool) (stopScript : String)
  | stop (index : Nat)
deriving Repr, DecidableEq

/-- Whether two texts are the same but for the case of ASCII letters. -/
def sameIgnoringCase (s t : String) : Bool :=
  s.toList.map Char.toLower == t.toList.map Char.toLower

/-- The ends of one range that lie in the script with a name, by address. -/
def rangeMarks (name : String) (range : SkipRange) (index : Nat) : List (Nat × SkipMark) :=
  (if sameIgnoringCase range.start.script name then
    [(range.start.addr,
      .start index range.start.insertTransition (Unicode.toUpper range.stop.script))]
   else []) ++
  (if sameIgnoringCase range.stop.script name then [(range.stop.addr, .stop index)] else [])

/-- The ends of ranges that lie in the script with a name. -/
def skipMarks (skip : AdultSkip) (name : String) : List (Nat × SkipMark) :=
  if skip.enabled then
    (skip.ranges.zipIdx.map fun (range, index) => rangeMarks name range index).flatten
  else []

/-- What is fixed while a script is gone through. -/
structure Context where
  profile : Profile
  /-- The name of the script in upper case. -/
  name : String
  instructions : List Instruction
  graph : BlockGraph

namespace Context

/-- The text of script bytes. -/
def text (c : Context) (raw : List UInt8) : String :=
  c.profile.text raw

/-- The text of script bytes, escaped for dialogue. -/
def dialogue (c : Context) (raw : List UInt8) : String :=
  Literal.escape c.profile.emoji? (c.text raw)

/-- The name of a script given in script bytes. -/
def scriptName (c : Context) (raw : List UInt8) : String :=
  Unicode.toUpper (c.text raw)

/-- The label of an address of this script. -/
def label (c : Context) (addr : Nat) : Label :=
  .address c.name addr

/-- The end of a range that lies at an address; of several the last one counts. -/
def skipMark? (c : Context) (addr : Nat) : Option SkipMark :=
  (skipMarks c.profile.adultSkip c.name).reverse.lookup addr

/-- Whether a flag tells that the player is skipping. -/
def isSkipFlag (c : Context) (flag : Int) : Bool :=
  (addressOfInt? flag).bind c.profile.flagName? == some "skipping"

end Context

/-- What changes while a script is gone through. -/
structure State where
  document : Document := {}
  stage : Stage := {}
  /-- A line of dialogue that waits for the next menu. -/
  held : Option Instruction := none
  /-- Where the open branches close, the innermost first. -/
  scopeEnds : List Nat := []
  /-- Addresses that are jumped to and have no label yet. -/
  pendingLabels : List Nat := []
  /-- How long a line takes to appear; lines appear at once for zero. -/
  revealDuration : Int := 0
  /-- The addresses of pauses that a line of dialogue has taken over. -/
  inlinedPauses : List Nat := []
  textSize : Int := 0
  /-- Who speaks in the last voice file. -/
  nextSpeaker : Option String := none
  records : Array Record := #[]

/-- A run that halted. -/
structure Halt where
  fault : Fault
  state : State

/-- A step of a run. -/
abbrev Step := Except Halt State

namespace State

/-- Adds a statement. -/
def emit (s : State) (statement : Statement) : State :=
  { s with document := s.document.statement statement }

/-- Adds a statement with a block under it. -/
def header (s : State) (statement : Statement) : State :=
  { s with document := s.document.header statement }

/-- Adds a comment. -/
def remark (s : State) (r : Remark) : State :=
  { s with document := s.document.comment r }

/-- Closes the innermost block. -/
def closeScope (s : State) : State :=
  { s with
    document := s.document.closeScope
    records := s.records ++ s.document.editRecords .closeScope }

/-- Adds a report. -/
def report (s : State) (severity : Severity) (message : String) : State :=
  { s with records := s.records.push ⟨severity, message⟩ }

/-- Halts. -/
def halt (s : State) (fault : Fault) : Step :=
  .error ⟨fault, s⟩

/-- The expression of a flag that the script may use. Where it may not, comments say so as the
profile asks. -/
def access (s : State) (flag : Int) (found : FlagAccess) (hint : String → Remark) :
    Option String × State :=
  match found with
  | .granted reference => (some reference, s)
  | .excluded => (none, s)
  | .hinted reference => (none, s.remark (hint reference))
  | .unmapped => (none, s.remark (.unmappedFlag flag))

end State

/-- What the use of a flag comes to; numbers that are no address belong to no bank. -/
def flagAccess (p : Profile) (flag : Int) : FlagAccess :=
  match addressOfInt? flag with
  | some addr => p.access addr
  | none => .unmapped

/-- What the use of a flag through another one comes to. -/
def flagAccessThrough (p : Profile) (flag : Int) : FlagAccess :=
  match addressOfInt? flag with
  | some addr => p.accessThrough addr
  | none => .unmapped

end Rio.Screenplay
