import Rio.Stage.Picture

/-!
# Places on the screen

A place holds a picture, or stands for something that is drawn elsewhere and of which the script
knows only the name. What stands in can be neither animated nor replaced.
-/

namespace Rio.Stage

/-- What a place holds. -/
inductive Figure where
  | picture (p : Picture)
  /-- Something drawn elsewhere, by the reference that hides it. -/
  | standIn (reference : String)
deriving Repr

/-- What cannot be done to something drawn elsewhere. -/
inductive FigureFault where
  | animateStandIn (reference : String)
  | replaceStandIn (reference : String)
deriving Repr, DecidableEq

/-- What is said of a fault. -/
def FigureFault.message : FigureFault → String
  | animateStandIn reference =>
    "animation of stub object `" ++ reference ++ "` is not supported"
  | replaceStandIn reference => "cannot replace stub object `" ++ reference ++ "`"

namespace Figure

/-- The picture in a place. -/
def picture? : Figure → Option Picture
  | picture p => some p
  | standIn _ => none

/-- Changes a picture and leaves anything else alone. -/
def map (f : Picture → Picture) : Figure → Figure
  | picture p => picture (f p)
  | standIn reference => standIn reference

/-- Replaces a picture, and tells whether that changed anything. -/
def replace (name : String) (x y : Int) : Figure → Except FigureFault (Figure × Bool)
  | picture p => .ok (picture (p.replace name x y), p.differs name x y)
  | standIn reference => .error (.replaceStandIn reference)

/-- Appends a key frame to a picture. -/
def addFrame (kind : FrameKind) (dx dy ms fade : Int) : Figure → Except FigureFault Figure
  | picture p => .ok (picture (p.addFrame kind dx dy ms fade))
  | standIn reference => .error (.animateStandIn reference)

/-- Whether there is something to draw. -/
def isDirty : Figure → Bool
  | picture p => p.dirty
  | standIn _ => false

end Figure

/-- A place that is taken. -/
structure Slot where
  figure : Figure
  /-- Whether it is to be cleared with the next drawing. -/
  pendingRemoval : Bool := false
deriving Repr

/-- Replaces the picture in a place and takes back its removal, also if the replacement fails. -/
def Slot.replace (s : Slot) (name : String) (x y : Int) : Slot × Except FigureFault Bool :=
  match s.figure.replace name x y with
  | .ok (figure, changed) => (⟨figure, false⟩, .ok changed)
  | .error fault => ({ s with pendingRemoval := false }, .error fault)

end Rio.Stage
