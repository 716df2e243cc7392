import Rio.Screenplay.Command
import Rio.Screenplay.State

/-!
# Scenery

Commands that change what is on the stage. Nothing is drawn yet; that is left to transitions and
plays.
-/

namespace Rio.Screenplay

open Stage (Picture Slot)

/-- Adds cues to the document. -/
def State.cue (s : State) : Stage.Cue → State
  | .draw shot lines => { s with document := s.document.shot shot lines }
  | .hide tag => s.emit (.hide tag)

/-- Draws what changed on the stage, and tells whether anything did. -/
def draw (c : Context) (s : State) : Bool × State :=
  let (stage, cues, changed) :=
    s.stage.draw ⟨c.profile.useAtlMatrixcolor, c.profile.accurateZorder⟩
  (changed, cues.foldl State.cue { s with stage })

/-- A background. Under the same name the picture stays and only moves. -/
def setBackground (stage : Stage) (name : String) (x y : Int) : Stage :=
  let fresh := { stage with
    background := some (.new name x y .image), backgroundRedraw := true }
  match stage.background with
  | some p =>
    if p.name == name then
      { stage with
        background := some (p.replace name x y)
        backgroundRedraw := stage.backgroundRedraw || p.differs name x y }
    else fresh
  | none => fresh

/-- The view on the background. -/
def setViewport (s : State) (zoom xpan ypan : Int) : State :=
  match s.stage.background with
  | some p =>
    let p := p.setViewport zoom xpan ypan
    { s with stage := { s.stage with
        background := some p, backgroundRedraw := s.stage.backgroundRedraw || p.dirty } }
  | none => s.remark .viewportWithoutBackground

/-- Puts a picture into a foreground place. While an animation is under way a place that is taken
stays as it is. -/
def putForeground (s : State) (addr index : Nat) (name : String) (x y : Int) : Step :=
  match s.stage.foreground? index with
  | none =>
    .ok { s with stage := { s.stage.setForeground index
      ⟨.picture (.new name x y .screen), false⟩ with
      foregroundRedraw := true } }
  | some slot =>
    if s.stage.inSegment then .ok (s.remark .replacementInhibited)
    else
      let (slot, result) := slot.replace name x y
      let stage := s.stage.setForeground index slot
      match result with
      | .ok changed =>
        .ok { s with stage := { stage with
          foregroundRedraw := stage.foregroundRedraw || changed } }
      | .error cause => { s with stage }.halt (.figure addr cause)

/-- Tints the picture in a foreground place by the tint of the stage, or takes its tint away. -/
def tintForeground (stage : Stage) (index : Nat) (untinted : Bool) : Stage :=
  match stage.foreground? index with
  | none => stage
  | some slot =>
    if untinted then
      stage.setForeground index { slot with figure := slot.figure.map (·.setTint 0) }
    else if stage.tint == 0 then stage
    else stage.setForeground index { slot with figure := slot.figure.map (·.setTint stage.tint) }

/-- Shows a foreground. -/
def showForeground (s : State) (addr index : Nat) (name : String) (x y : Int) (untinted : Bool) :
    Step := do
  let s ← putForeground s addr index name x y
  return { s with stage := tintForeground s.stage index untinted }

/-- Shows the object. Under the same name the picture stays and only moves. -/
def showObject (s : State) (addr : Nat) (name : String) (x y : Int) : Step :=
  let fresh : Step := .ok { s with stage := { s.stage with
    object := some ⟨.picture (.new name x y .screen), false⟩, objectRedraw := true } }
  match s.stage.object with
  | some slot =>
    if slot.figure.picture?.any (·.name == name) then
      let (slot, result) := slot.replace name x y
      let stage := { s.stage with object := some slot }
      match result with
      | .ok changed =>
        .ok { s with stage := { stage with objectRedraw := stage.objectRedraw || changed } }
      | .error cause => { s with stage }.halt (.figure addr cause)
    else fresh
  | none => fresh

/-- Clears a foreground place with the next drawing. -/
def clearForeground (s : State) (index : Int) : State :=
  let s := s.remark (.clearForeground index)
  match if 0 ≤ index then s.stage.foreground? index.toNat else none with
  | some slot =>
    { s with stage := { s.stage.setForeground index.toNat { slot with pendingRemoval := true } with
        foregroundRedraw := true } }
  | none => s

/-- Clears the object with the next drawing. -/
def clearObject (s : State) : State :=
  let s := s.remark .clearObject
  match s.stage.object with
  | some slot =>
    { s with stage := { s.stage with
        object := some { slot with pendingRemoval := true }, objectRedraw := true } }
  | none => s

/-- The weather. -/
def weather (c : Context) (s : State) (kind limit : Int) : State :=
  if kind == 0 then s.emit (.hideWeather c.profile.weatherLayer)
  else if kind == 2 then s.emit (.showRain limit c.profile.weatherLayer)
  else s.remark (.unknownWeather kind)

/-- A shake of the whole screen; the duration 255 stands for one without end. -/
def screenEffect (s : State) (kind duration magnitude : Int) : State :=
  if kind == 0 then s.emit (.showMaster false)
  else if kind == 1 then
    if duration == 255 then
      ((s.header (.showMaster true)).emit (.shakeDriver magnitude)).closeScope
    else s.emit (.screenShake duration magnitude)
  else s.remark (.unknownScreenEffect kind)

/-- The mask of the transitions to come. -/
def setMask (s : State) (mask : String) : State :=
  let s := s.remark (.maskSet mask)
  { s with stage := { s.stage with mask := some mask } }

end Rio.Screenplay
