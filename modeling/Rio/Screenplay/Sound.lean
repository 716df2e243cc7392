import Rio.Screenplay.Command
import Rio.Screenplay.State

/-!
# Sound

Music, sounds on numbered channels, and voices. A voice also tells who speaks next, by the name of
its file.
-/

namespace Rio.Screenplay

/-- How a sound file is named: alone, or with its folder and extension. -/
def Context.audio (c : Context) (raw : List UInt8) (folder extension : String) : String :=
  if c.profile.audioSymbolOnly then c.text raw else folder ++ "/" ++ c.text raw ++ extension

/-- Every channel but the first has to be registered by hand. -/
def remarkChannel (s : State) (channel : Int) : State :=
  if channel == 0 then s else s.remark (.registerChannel channel)

/-- Plays a sound. -/
def playSound (c : Context) (s : State) (channel : Nat) (file : List UInt8) (fadein repeats : Int) :
    State :=
  (remarkChannel s channel).emit (.playSound channel (c.audio file "Se" "") fadein repeats)

/-- Stops a channel, or all of them for a negative one. -/
def stopSound (s : State) (channel : Int) (fadeout : Option Int) : State :=
  if channel < 0 then s.emit (.stopAllSounds fadeout)
  else (remarkChannel s channel).emit (.stopSound channel fadeout)

/-- Plays a voice. -/
def voice (c : Context) (s : State) (file : List UInt8) : State :=
  let s := s.emit (.voice (c.audio file "Voice" ".OGG"))
  if c.profile.voiceMatches.isEmpty then s
  else { s with nextSpeaker := c.profile.voiceSpeaker? (c.text file) }

end Rio.Screenplay
