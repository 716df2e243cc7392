import Rio.Screenplay.Flow

/-!
# Dialogue

Lines of dialogue with their speakers. A line that appears letter by letter takes over the pause
that follows it, and the last line before a menu waits for the menu.
-/

namespace Rio.Screenplay

open Renpy (Line Reveal Speaker Speech Statement TextSize)

/-- What comes first among instructions: a pause, dialogue, or neither. -/
inductive PauseSearch where
  | found (i : Instruction)
  | dialogue
  | neither

/-- Looks for a pause before the next dialogue. -/
def searchPause (instructions : List Instruction) : PauseSearch :=
  match instructions.find? fun i => i.mnemonic.isDialogue || i.mnemonic == .sleep with
  | none => .neither
  | some i => if i.mnemonic == .sleep then .found i else .dialogue

/-- Whether an instruction branches on the player not skipping. -/
def isSkipGuard (c : Context) (i : Instruction) : Bool :=
  i.mnemonic == .jeq && (i.int? 0).any c.isSkipFlag && i.int? 1 == some 0

/-- The pause that follows the line at an address: in its block, or else in the block that is
entered when the player is not skipping. -/
def followingPause? (c : Context) (addr : Nat) : Option Instruction := do
  let block ← c.graph.blockContaining? addr
  let rest := block.instructionsFrom c.instructions addr
  match searchPause (rest.drop 1) with
  | .found i => some i
  | .dialogue => none
  | .neither =>
    let last ← rest.getLast?
    if block.kind == .conditional && isSkipGuard c last then
      let next ← c.graph.blockAt? (← block.trueTarget)
      match searchPause (next.instructions c.instructions) with
      | .found i => some i
      | _ => none
    else none

/-- Takes over the pause that follows the line at an address: its length, if there is one. -/
def takePause (c : Context) (s : State) (addr : Nat) : Option Int × State :=
  match followingPause? c addr with
  | none => (none, s)
  | some i =>
    match i.int? 0 with
    | none => (none, s)
    | some ms =>
      (some ms,
        { s with
          inlinedPauses :=
            if s.inlinedPauses.contains i.addr then s.inlinedPauses
            else i.addr :: s.inlinedPauses })

/-- The size of a line; an unknown one is remarked on. -/
def lineSize (s : State) : TextSize × State :=
  if s.textSize == 0 then (.normal, s)
  else if s.textSize == 1 then (.large, s)
  else if s.textSize == 2 then (.small, s)
  else (.normal, s.remark (.unknownTextSize s.textSize))

/-- A line of dialogue that an instruction at an address says. -/
def line (c : Context) (s : State) (addr : Nat) (raw : List UInt8) : Line × State :=
  let text := c.dialogue raw
  let (size, s) := lineSize s
  if s.revealDuration == 0 then ({ text, size }, s)
  else
    let (pause, s) := takePause c s addr
    ({ text, size, reveal := some ⟨s.revealDuration, pause⟩ }, s)

/-- Who a name stands for: the character with that name, or else the one the voice told of. The name
is shown instead of that character's own if it is another one. -/
def speakerSymbol (p : Profile) (name : String) (voice : Option String) : Option (String × Bool) :=
  match p.symbolOf? name, voice with
  | some symbol, _ => some (symbol, false)
  | none, some symbol => some (symbol, (p.character? symbol).all (·.name != name))
  | none, none => none

/-- The speech of a named speaker. -/
def namedSpeech (p : Profile) (name : String) (voice : Option String) (l : Line) : Speech :=
  let found := speakerSymbol p name voice
  let speaker : Speaker :=
    match found with
    | some (symbol, _) => if p.characterLookup then .symbol (p.qualify symbol) else .name name
    | none => .name name
  { speaker := some speaker
    line := l
    shownAs := if found.any (·.2) then some name else none }

/-- A line of dialogue. -/
def utter (c : Context) (s : State) (addr : Nat) (u : Utterance) : State :=
  let (l, s) := line c s addr u.text
  let speech : Speech :=
    match u.speaker with
    | none => { speaker := none, line := l }
    | some raw => namedSpeech c.profile (c.text raw) s.nextSpeaker l
  { s.emit (.say speech) with nextSpeaker := none }

/-- Says the line of an instruction. -/
def speak (c : Context) (s : State) (i : Instruction) : Step :=
  if i.mnemonic.isSay then
    match Command.utterance? i with
    | some u => .ok (utter c s i.addr u)
    | none => s.halt (.operands i.addr i.mnemonic)
  else s.halt (.notDialogue i.addr i.mnemonic)

/-- Whether a menu comes before the next line of dialogue. -/
def menuFollows : List Instruction → Bool
  | [] => false
  | i :: rest =>
    if i.mnemonic.isSay then false
    else if i.mnemonic == .option then true
    else menuFollows rest

/-- Whether a line waits for the menu that follows it. -/
def waitsForMenu (c : Context) (i : Instruction) (rest : List Instruction) : Bool :=
  c.profile.moveSayIntoMenu && i.mnemonic.isSay && menuFollows rest

/-- A line of dialogue, or the remark that it comes with the next menu. -/
def say (c : Context) (s : State) (i : Instruction) (rest : List Instruction) : Step :=
  if waitsForMenu c i rest then .ok (s.remark .saidUnderMenu) else speak c s i

/-- A menu, the line that waits for it first. -/
def menu (c : Context) (s : State) (choices : List MenuOption) : Step := do
  let s := s.header .menu
  let s ←
    match c.profile.moveSayIntoMenu, s.held with
    | true, some i => speak c { s with held := none } i
    | _, _ => pure s
  return (choices.foldl (choice c) s).closeScope

/-- A pause, unless a line has taken it over. -/
def sleep (s : State) (i : Instruction) (ms : Option Int) : Step :=
  if s.inlinedPauses.contains i.addr then
    .ok <| { s with inlinedPauses := s.inlinedPauses.filter (· != i.addr) }.remark .pauseInlined
  else
    match ms with
    | some ms => .ok (s.emit (.pause ms))
    | none => s.halt (.operands i.addr i.mnemonic)

end Rio.Screenplay
