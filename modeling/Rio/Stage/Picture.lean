import Rio.Renpy.Atl

/-!
# Pictures

A picture on the screen, as far as the script has described it: where it stands, how the view on
it is scaled and turned, its tint, and the key frames that wait to be played. A picture is dirty
if it has changed since it was last drawn.
-/

namespace Rio.Stage

open Renpy (Origin Offset AtlLine)

/-- What kind of motion a key frame is. -/
inductive FrameKind where
  | linear
  /-- A shake, of which only the displacement is kept. -/
  | shake
deriving Repr, DecidableEq

/-- A key frame: a displacement and a fade over a time, and what they lead to. -/
structure KeyFrame where
  kind : FrameKind
  dx : Int
  dy : Int
  ms : Int
  fade : Int
  /-- The position at its end. -/
  x : Int
  y : Int
  /-- The opacity at its end. -/
  alpha : Float
deriving Repr

/-- The middle of the screen, which a view looks at unless it is turned. -/
def panCenter : Int × Int := (400, 300)

/-- A picture. -/
structure Picture where
  name : String
  origin : Origin
  /-- The position before the key frames that wait. -/
  base : Int × Int
  /-- The position after them. -/
  pos : Int × Int
  /-- In percent. -/
  zoom : Int := 100
  pan : Int × Int := panCenter
  alpha : Float := 1.0
  frames : List KeyFrame := []
  tint : Int := 0
  /-- Whether the tint has changed since the picture was last drawn. -/
  tintChanged : Bool := false
  dirty : Bool := true
deriving Repr

namespace Picture

/-- A picture that has just appeared. -/
def new (name : String) (x y : Int) (origin : Origin) : Picture :=
  { name, origin, base := (x, y), pos := (x, y) }

/-- Sets the tint; another tint than before makes the picture dirty. -/
def setTint (p : Picture) (tint : Int) : Picture :=
  if tint == p.tint then p else { p with tint, tintChanged := true, dirty := true }

/-- Sets the view; another view than before makes the picture dirty. -/
def setViewport (p : Picture) (zoom xpan ypan : Int) : Picture :=
  if zoom == p.zoom && (xpan, ypan) == p.pan then p
  else { p with zoom, pan := (xpan, ypan), dirty := true }

/-- Whether a picture by a name at a position would be another one. -/
def differs (p : Picture) (name : String) (x y : Int) : Bool :=
  !(p.name == name && p.base == (x, y))

/-- Shows another picture or moves this one; the key frames that wait are dropped if that changes
anything. -/
def replace (p : Picture) (name : String) (x y : Int) : Picture :=
  if p.differs name x y then
    { p with name, base := (x, y), pos := (x, y), frames := [], dirty := true }
  else p

/-- Appends a key frame. -/
def addFrame (p : Picture) (kind : FrameKind) (dx dy ms fade : Int) : Picture :=
  let x := p.pos.1 + dx
  let y := p.pos.2 + dy
  let alpha := p.alpha + Float.ofInt fade / 255.0
  { p with
    pos := (x, y), alpha, frames := p.frames ++ [⟨kind, dx, dy, ms, fade, x, y, alpha⟩],
    dirty := true }

/-- Takes the key frames for played: the picture now stands where they led to. -/
def flatten (p : Picture) : Picture :=
  { p with base := p.pos, frames := [] }

/-- Takes the picture for drawn as it is. -/
def markDrawn (p : Picture) : Picture :=
  { p with dirty := false, tintChanged := false }

/-- A horizontal coordinate of the picture. -/
def xOffset (p : Picture) (x : Int) : Offset :=
  ⟨x, Renpy.screenWidth, p.origin⟩

/-- A vertical coordinate of the picture. -/
def yOffset (p : Picture) (y : Int) : Offset :=
  ⟨y, Renpy.screenHeight, p.origin⟩

/-- Where the picture stands; coordinates of zero are left out. -/
def positionLines (p : Picture) : List AtlLine :=
  let (x, y) := p.base
  if x != 0 && y != 0 then [.pos (p.xOffset x) (p.yOffset y)]
  else if x != 0 then [.xpos (p.xOffset x)]
  else if y != 0 then [.ypos (p.yOffset y)]
  else []

/-- How the view is scaled and turned. A scaled view that is not turned says so, since the output
turns from a corner. -/
def viewportLines (p : Picture) : List AtlLine :=
  if p.zoom == 100 then []
  else
    let x := p.pan.1 - panCenter.1
    let y := p.pan.2 - panCenter.2
    .zoom p.zoom ::
      (if x == 0 && y == 0 then [.xpan 0, .ypan 0]
       else (if x == 0 then [] else [.xpan x]) ++ (if y == 0 then [] else [.ypan y]))

/-- The tint as a colour matrix, if it changed. -/
def tintLines (p : Picture) : List AtlLine :=
  if p.tintChanged then
    .clearTint :: (if p.tint == 0 then [] else [.tint p.tint])
  else []

/-- One key frame; what it leaves unchanged is left out. -/
def frameLines (p : Picture) (f : KeyFrame) : List AtlLine :=
  let x := if f.dx == 0 then none else some (p.xOffset f.x)
  let y := if f.dy == 0 then none else some (p.yOffset f.y)
  let alpha := if f.fade == 0 then none else some f.alpha
  let motion :=
    if f.dx == 0 && f.dy == 0 && f.fade == 0 then AtlLine.rest f.ms else .move f.ms x y alpha
  match f.kind with
  | .linear => [motion]
  | .shake => [.shake, motion]

/-- The block under the picture: its state, then the key frames that wait. -/
def atl (p : Picture) (useMatrixcolor : Bool) : List AtlLine :=
  p.positionLines ++ p.viewportLines ++ (if useMatrixcolor then p.tintLines else []) ++
    p.frames.flatMap p.frameLines

end Picture

end Rio.Stage
