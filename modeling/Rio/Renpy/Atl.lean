import Rio.Numeral.Decimal

/-!
# Animation and transformation lines

The lines of the block under a picture: where it stands, how it is scaled and tinted, and how it
moves. Positions are kept in pixels of the engine's screen and written as fractions of it.
-/

namespace Rio.Renpy

/-- The width of the engine's screen. -/
def screenWidth : Nat := 800

/-- The height of the engine's screen. -/
def screenHeight : Nat := 600

/-- What the coordinates of a picture are relative to. -/
inductive Origin where
  /-- The place of the picture on the screen. -/
  | screen
  /-- The place of the screen on the picture. -/
  | image
deriving Repr, DecidableEq

/-- A number of pixels along one side of the screen. -/
structure Offset where
  pixels : Int
  extent : Nat
  origin : Origin
deriving Repr, DecidableEq

/-- The fraction of the side. -/
def Offset.toFloat (o : Offset) : Float :=
  let fraction := Float.ofInt o.pixels / Float.ofNat o.extent
  match o.origin with
  | .screen => fraction
  | .image => -fraction

/-- The fraction as it is written. -/
def Offset.text (o : Offset) : String :=
  Numeral.ofFloat o.toFloat

/-- A line of the block under a picture. -/
inductive AtlLine where
  | xpos (x : Offset)
  | ypos (y : Offset)
  | pos (x y : Offset)
  | zoom (percent : Int)
  /-- Pixels from the middle of the screen. -/
  | xpan (pixels : Int)
  | ypan (pixels : Int)
  | clearTint
  | tint (index : Int)
  /-- Announces that the next line stands for a shake. -/
  | shake
  /-- Nothing happens for a time. -/
  | rest (ms : Int)
  /-- A steady move or fade over a time, to the coordinates that are given. -/
  | move (ms : Int) (x y : Option Offset) (alpha : Option Float)
deriving Repr

/-- A turn of the view by pixels, as a share of half a turn for `extent` pixels. -/
def panText (pixels : Int) (extent : Nat) : String :=
  Numeral.ofFloat (180.0 * (Float.ofInt pixels / Float.ofNat extent))

/-- A line as it is written. -/
def AtlLine.text : AtlLine → String
  | xpos x => "xpos " ++ x.text
  | ypos y => "ypos " ++ y.text
  | pos x y => "pos (" ++ x.text ++ ", " ++ y.text ++ ")"
  | zoom percent => "zoom " ++ Numeral.ofFloat (Float.ofInt percent / 100.0)
  | xpan pixels => "xpan " ++ panText pixels (screenWidth / 2)
  | ypan pixels => "ypan " ++ panText pixels (screenHeight / 2)
  | clearTint => "matrixcolor None"
  | tint index => "matrixcolor WillTintTable(" ++ toString index ++ ")"
  | shake => "# shake"
  | rest ms => "pause " ++ Numeral.secondsText ms
  | move ms x y alpha =>
    let goal :=
      match x, y with
      | some x, some y => " pos (" ++ x.text ++ ", " ++ y.text ++ ")"
      | some x, none => " xpos " ++ x.text
      | none, some y => " ypos " ++ y.text
      | none, none => ""
    let fade :=
      match alpha with
      | some alpha => " alpha " ++ Numeral.ofFloat alpha
      | none => ""
    "linear " ++ Numeral.secondsText ms ++ goal ++ fade

end Rio.Renpy
