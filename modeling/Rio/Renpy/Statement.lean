import Rio.Bytecode.Mnemonic
import Rio.Literal.SingleQuoted
import Rio.Renpy.Atl
import Rio.Renpy.Label

/-!
# Statements

What a generated script consists of. A statement knows its parts; how they are written is said in
one place, `Statement.text`.
-/

namespace Rio.Renpy

/-! ## Dialogue -/

/-- How large a line of dialogue is shown. -/
inductive TextSize where
  | normal
  | large
  | small
deriving Repr, DecidableEq

/-- Text in a size. -/
def TextSize.wrap : TextSize → String → String
  | normal, s => s
  | large, s => "\x7bsize=+32\x7d" ++ s ++ "\x7b/size\x7d"
  | small, s => "\x7bsize=-8\x7d" ++ s ++ "\x7b/size\x7d"

/-- A line that appears letter by letter within a time, and the pause after it in milliseconds. -/
structure Reveal where
  /-- In hundredths of the engine's frames. -/
  duration : Int
  pause : Option Int
deriving Repr, DecidableEq

/-- The engine's frames in a second. -/
def framesPerSecond : Float := 20.0

/-- The speed at which a number of letters appears. -/
def Reveal.speed (r : Reveal) (letters : Nat) : Float :=
  Float.ofNat letters / (Float.ofInt r.duration / 100.0 / framesPerSecond)

/-- Text that appears letter by letter and does not wait at its end. -/
def Reveal.wrap (r : Reveal) (s : String) : String :=
  let pause :=
    match r.pause with
    | some ms => "\x7bw=" ++ Numeral.secondsText ms ++ "\x7d"
    | none => ""
  "\x7bcps=" ++ Numeral.ofFloat (r.speed s.length) ++ "\x7d" ++ s ++ "\x7b/cps\x7d" ++ pause ++
    "\x7bnw\x7d"

/-- A line of dialogue: escaped text, with its size and the way it appears. -/
structure Line where
  text : String
  size : TextSize := .normal
  reveal : Option Reveal := none
deriving Repr, DecidableEq

/-- The line between quotes. -/
def Line.quoted (l : Line) : String :=
  let sized := l.size.wrap l.text
  let shown :=
    match l.reveal with
    | some r => r.wrap sized
    | none => sized
  "\"" ++ shown ++ "\""

/-- Who says a line. -/
inductive Speaker where
  /-- A character object. -/
  | symbol (qualified : String)
  /-- A name, shown as it is. -/
  | name (shown : String)
deriving Repr, DecidableEq

/-- A speaker as it stands before a line. -/
def Speaker.text : Speaker → String
  | symbol qualified => qualified
  | name shown => "\"" ++ shown ++ "\""

/-- A line of dialogue with its speaker, and the name to show instead of the speaker's own. -/
structure Speech where
  speaker : Option Speaker
  line : Line
  shownAs : Option String := none
deriving Repr, DecidableEq

/-- The speech on one line. -/
def Speech.text (s : Speech) : String :=
  let speaker :=
    match s.speaker with
    | some speaker => speaker.text ++ " "
    | none => ""
  let shownAs :=
    match s.shownAs with
    | some name => " (name='" ++ name ++ "')"
    | none => ""
  speaker ++ s.line.quoted ++ shownAs

/-! ## Flags -/

/-- What an assignment does with its right side. -/
inductive AssignOp where
  | set
  | add
  | sub
  | mod
deriving Repr, DecidableEq

/-- The operator of an assignment. -/
def AssignOp.symbol : AssignOp → String
  | set => "="
  | add => "+="
  | sub => "-="
  | mod => "%="

/-! ## Sound -/

/-- The name of a sound channel. -/
def channelName (channel : Int) : String :=
  if channel == 0 then "sound" else "sound" ++ toString (channel + 1)

/-- A clause that takes a time, left out for none. -/
def timeClause (word : String) (ms : Int) : String :=
  if ms == 0 then "" else " " ++ word ++ " " ++ Numeral.secondsText ms

/-- How often a sound is repeated; only "for ever" can be said, the count goes into a comment. -/
def loopClause (repeats : Int) : String :=
  if repeats == 0 then ""
  else if repeats == 255 then " loop"
  else " loop # " ++ toString repeats ++ " loops"

/-! ## Pictures -/

/-- The tag by which something on the screen is known. -/
inductive Tag where
  | foreground (index : Nat)
  | object
  /-- Something that is drawn elsewhere. -/
  | standIn (reference : String)
deriving Repr, DecidableEq

/-- The tag as it is written. -/
def Tag.text : Tag → String
  | foreground index => "fg_i" ++ toString index
  | object => "obj_i0"
  | standIn reference => reference

/-- Something brought onto the screen; names are upper case. -/
inductive Shot where
  /-- A new background; it clears everything else. -/
  | background (name : String)
  /-- A foreground, wrapped in a tint if one is given. -/
  | foreground (index : Nat) (name : String) (tint : Option Int) (zorder : Bool)
  | object (name : String) (zorder : Bool)
deriving Repr, DecidableEq

/-- A shot as it is written, without its block. -/
def Shot.text : Shot → String
  | background name => "scene bg " ++ name ++ " at reset"
  | foreground index name tint zorder =>
    let image := "fg " ++ name
    let image :=
      match tint with
      | some t => "expression WillImTint('" ++ image ++ "', " ++ toString t ++ ")"
      | none => image
    let depth := if zorder then " zorder " ++ toString index else ""
    "show " ++ image ++ " at reset" ++ depth ++ " as " ++ (Tag.foreground index).text
  | object name zorder =>
    let depth := if zorder then " zorder 256" else ""
    "show obj " ++ name ++ " at reset" ++ depth ++ " as " ++ Tag.object.text

/-- The layer of the weather, if it has one of its own. -/
def layerClause : Option String → String
  | some layer => " onlayer " ++ layer
  | none => ""

/-! ## Statements -/

/-- A statement of a generated script. -/
inductive Statement where
  | label (l : Label)
  | jump (l : Label)
  | call (l : Label)
  | ret
  | ifFlag (reference : String) (cmp : Comparison) (value : Int)
  | ifFalse
  | ifNotPersistent (name : String)
  | menu
  | choice (text : String) (condition : Option String)
  | pass
  | say (s : Speech)
  | extend (text : String)
  | pause (ms : Int)
  | saveName (name : String)
  | assign (reference : String) (op : AssignOp) (value : String)
  | clearBank (name : String)
  | playMusic (file : String) (fadein : Int)
  | stopMusic (fadeout : Int)
  | playSound (channel : Int) (file : String) (fadein repeats : Int)
  | stopSound (channel : Int) (fadeout : Option Int)
  | stopAllSounds (fadeout : Option Int)
  | voice (file : String)
  /-- A shot, `timed` if a block follows it. -/
  | shot (s : Shot) (timed : Bool)
  | atl (line : AtlLine)
  | hide (t : Tag)
  | blackScene
  | showSide (name : String)
  | hideSide
  | showRain (limit : Int) (layer : Option String)
  | hideWeather (layer : Option String)
  | showMaster (timed : Bool)
  | shakeDriver (magnitude : Int)
  | screenShake (duration magnitude : Int)
  | movie (file : String)
  | effect (expression : String)
  | reportIncomplete
  /-- A statement that was given as text. -/
  | verbatim (text : String)
deriving Repr

/-- A statement as it is written. -/
def Statement.text : Statement → String
  | label l => "label " ++ l.text ++ ":"
  | jump l => "jump " ++ l.text
  | call l => "call " ++ l.text
  | ret => "return"
  | ifFlag reference cmp value =>
    "if " ++ reference ++ " " ++ cmp.symbol ++ " " ++ toString value ++ ":"
  | ifFalse => "if False:"
  | ifNotPersistent name => "if not persistent." ++ name ++ ":"
  | menu => "menu:"
  | choice text none => "\"" ++ text ++ "\":"
  | choice text (some condition) => "\"" ++ text ++ "\" if " ++ condition ++ ":"
  | pass => "pass"
  | say s => s.text
  | extend text => "extend \"" ++ text ++ "\""
  | pause ms => "pause " ++ Numeral.secondsText ms
  | saveName name => "$ save_name = _(" ++ Literal.singleQuoted name ++ ")"
  | assign reference op value => "$ " ++ reference ++ " " ++ op.symbol ++ " " ++ value
  | clearBank name => "$ " ++ name ++ ".clear()"
  | playMusic file fadein => "play music '" ++ file ++ "'" ++ timeClause "fadein" fadein ++ " loop"
  | stopMusic fadeout => "stop music" ++ timeClause "fadeout" fadeout
  | playSound channel file fadein repeats =>
    "play " ++ channelName channel ++ " '" ++ file ++ "'" ++ timeClause "fadein" fadein ++
      loopClause repeats
  | stopSound channel none => "stop " ++ channelName channel
  | stopSound channel (some ms) =>
    "stop " ++ channelName channel ++ " fadeout " ++ Numeral.secondsText ms
  | stopAllSounds none => "call stop_all_sounds()"
  | stopAllSounds (some ms) => "call stop_all_sounds(fadeout=" ++ Numeral.secondsText ms ++ ")"
  | voice file => "voice '" ++ file ++ "'"
  | shot s timed => s.text ++ (if timed then ":" else "")
  | atl line => line.text
  | hide t => "hide " ++ t.text
  | blackScene => "scene bg BLACK with dissolve"
  | showSide name => "will_side show side " ++ name
  | hideSide => "will_side hide"
  | showRain limit layer =>
    "show weather rain" ++ (if limit == 0 then "" else " " ++ toString limit) ++ " as weather" ++
      layerClause layer
  | hideWeather layer => "hide weather" ++ layerClause layer
  | showMaster timed => "show layer master" ++ (if timed then ":" else "")
  | shakeDriver magnitude => "function WillShakeDriverIndefinite(" ++ toString magnitude ++ ")"
  | screenShake duration magnitude =>
    "with WillScreenShake(" ++ toString duration ++ ", " ++ toString magnitude ++ ")"
  | movie file => "$ renpy.movie_cutscene('Videos/" ++ file ++ "')"
  | effect expression => "with " ++ expression
  | reportIncomplete => "$ renpy.error('Incomplete script translation')"
  | verbatim text => text

/-- Statements that open a block. -/
def Statement.isHeader : Statement → Bool
  | label _ | ifFlag .. | ifFalse | ifNotPersistent _ | menu | choice .. => true
  | shot _ timed | showMaster timed => timed
  | _ => false

end Rio.Renpy
