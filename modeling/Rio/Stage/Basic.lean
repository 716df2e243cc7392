import Rio.Renpy.Statement
import Rio.Stage.Slot
import Rio.Unicode.Case

/-!
# The stage

What is on the screen: a background, numbered foregrounds and an object. Changes collect until the
stage is drawn; drawing gives the cues for what changed and nothing else. A new background clears
the screen, so everything else that is there is then shown again.
-/

namespace Rio

open Renpy (AtlLine Shot Tag)
open Stage (Picture Figure Slot)

/-- What is on the screen, and which groups have changed since they were drawn. -/
structure Stage where
  background : Option Picture := none
  backgroundRedraw : Bool := false
  foregrounds : List (Option Slot) := []
  foregroundRedraw : Bool := false
  object : Option Slot := none
  objectRedraw : Bool := false
  /-- The tint of foregrounds that are shown from now on. -/
  tint : Int := 0
  mask : Option String := none
  /-- Whether plays are being held back until the end of an animation. -/
  inSegment : Bool := false
deriving Repr

namespace Stage

/-- One thing to do on the screen. -/
inductive Cue where
  /-- Show something with the lines of its block. -/
  | draw (s : Shot) (lines : List AtlLine)
  | hide (t : Tag)
deriving Repr

/-- The choices that drawing depends on. -/
structure Drawing where
  useMatrixcolor : Bool
  accurateZorder : Bool
deriving Repr, DecidableEq

/-- The foreground in a place. -/
def foreground? (s : Stage) (index : Nat) : Option Slot :=
  s.foregrounds[index]?.join

/-- Puts something into a foreground place, with empty places before it as needed. -/
def setForeground (s : Stage) (index : Nat) (slot : Slot) : Stage :=
  let grown := s.foregrounds ++ List.replicate (index + 1 - s.foregrounds.length) none
  { s with foregrounds := grown.set index (some slot) }

/-- A picture after it has been drawn. -/
def settle (p : Picture) : Picture :=
  p.flatten.markDrawn

/-- Draws the background if it changed, and tells whether it did: then the screen is cleared. -/
def drawBackground (drawing : Drawing) (s : Stage) : Stage × List Cue × Bool :=
  match s.backgroundRedraw, s.background with
  | true, some p =>
    if p.dirty then
      ({ s with background := some (settle p), backgroundRedraw := false },
        [.draw (.background (Unicode.toUpper p.name)) (p.atl drawing.useMatrixcolor)], true)
    else ({ s with backgroundRedraw := false }, [], false)
  | _, _ => ({ s with backgroundRedraw := false }, [], false)

/-- The shot of a foreground picture. Without a colour matrix a tint wraps the image. -/
def foregroundShot (drawing : Drawing) (index : Nat) (p : Picture) : Shot :=
  .foreground index (Unicode.toUpper p.name)
    (if p.tint != 0 && !drawing.useMatrixcolor then some p.tint else none) drawing.accurateZorder

/-- The tag that hides a place. -/
def hideTag (tag : Tag) : Figure → Tag
  | .picture _ => tag
  | .standIn reference => .standIn reference

/-- Draws one place, and tells whether it changed: clears it if that is due, and shows a picture
that changed. After a new background (`cleared`) there is nothing left to hide, which is a change
all the same, and every picture is shown again. -/
def drawSlot (drawing : Drawing) (cleared : Bool) (tag : Tag) (shot : Picture → Shot) :
    Option Slot → Option Slot × List Cue × Bool
  | none => (none, [], false)
  | some slot =>
    if slot.pendingRemoval then
      (none, if cleared then [] else [.hide (hideTag tag slot.figure)], true)
    else
      match slot.figure with
      | .picture p =>
        if cleared || p.dirty then
          (some { slot with figure := .picture (settle p) },
            [.draw (shot p) (p.atl drawing.useMatrixcolor)], true)
        else (some slot, [], false)
      | .standIn _ => (some slot, [], false)

/-- Draws one foreground place. -/
def drawForeground (drawing : Drawing) (cleared : Bool) (index : Nat) (slot : Option Slot) :
    Option Slot × List Cue × Bool :=
  drawSlot drawing cleared (.foreground index) (foregroundShot drawing index) slot

/-- Draws the foregrounds from the place `index` on, in order, and tells whether one changed. -/
def drawForegroundsFrom (drawing : Drawing) (cleared : Bool) (index : Nat) :
    List (Option Slot) → List (Option Slot) × List Cue × Bool
  | [] => ([], [], false)
  | slot :: rest =>
    let (slot, cues, changed) := drawForeground drawing cleared index slot
    let (rest, later, changedLater) := drawForegroundsFrom drawing cleared (index + 1) rest
    (slot :: rest, cues ++ later, changed || changedLater)

/-- Draws the foregrounds if one of them changed or the screen was cleared. -/
def drawForegrounds (drawing : Drawing) (cleared : Bool) (s : Stage) : Stage × List Cue × Bool :=
  if cleared || s.foregroundRedraw then
    let (foregrounds, cues, changed) := drawForegroundsFrom drawing cleared 0 s.foregrounds
    ({ s with foregrounds, foregroundRedraw := false }, cues, changed)
  else (s, [], false)

/-- Draws the object if it changed or the screen was cleared. -/
def drawObject (drawing : Drawing) (cleared : Bool) (s : Stage) : Stage × List Cue × Bool :=
  if cleared || s.objectRedraw then
    let shot (p : Picture) : Shot := .object (Unicode.toUpper p.name) drawing.accurateZorder
    let (object, cues, changed) := drawSlot drawing cleared .object shot s.object
    ({ s with object, objectRedraw := false }, cues, changed)
  else (s, [], false)

/-- Draws everything that changed, and tells whether anything did. -/
def draw (drawing : Drawing) (s : Stage) : Stage × List Cue × Bool :=
  let (s, background, cleared) := drawBackground drawing s
  let (s, foregrounds, foregroundsChanged) := drawForegrounds drawing cleared s
  let (s, object, objectChanged) := drawObject drawing cleared s
  (s, background ++ foregrounds ++ object, cleared || foregroundsChanged || objectChanged)

end Stage

end Rio
