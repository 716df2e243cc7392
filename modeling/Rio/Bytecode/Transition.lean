/-!
# Transitions

The ways in which one picture gives way to the next. Scripts name them by a code; listings and
messages by a name.
-/

namespace Rio

/-- A direction on the screen. -/
inductive Direction where
  | up
  | down
  | left
  | right
deriving Repr, DecidableEq

/-- The name of a direction. -/
def Direction.name : Direction → String
  | up => "up"
  | down => "down"
  | left => "left"
  | right => "right"

/-- The sense in which a mask is run through. -/
inductive MaskSense where
  | forward
  | reverse
deriving Repr, DecidableEq

/-- The sense of a rotation. -/
inductive Turn where
  | counterclockwise
  | clockwise
deriving Repr, DecidableEq

/-- A transition. -/
inductive Transition where
  /-- No transition: the new picture is there at once. -/
  | cut
  | wipe (towards : Direction)
  | wipeStrip (towards : Direction)
  | wipeAllStrip (towards : Direction)
  | vwipeInterlace
  | hwipeInterlace
  | vwipeCheckerboard
  | ditheredDissolve
  | pixellate
  | diagonal
  | boxes
  | shutterOpen
  | zoomOut
  | dissolveToZoomOut
  | dissolveToPush (towards : Direction)
  | fadeIn
  | fadeOut
  | maskWipe (sense : MaskSense)
  | maskDissolve (sense : MaskSense)
  | maskWhiteOut (sense : MaskSense)
  | newZoomOut
  | oldZoomIn
  | rotate (turn : Turn)
  | xrotate (turn : Turn)
  | xrotateWave (turn : Turn)
  | vwave
  | hwave
  | stretch
deriving Repr, DecidableEq

namespace Transition

/-- The transitions in the order of their codes. -/
def all : List Transition :=
  [.cut, .wipeAllStrip .down, .wipeAllStrip .up, .wipeAllStrip .right, .wipeAllStrip .left,
   .zoomOut, .boxes, .vwipeInterlace, .ditheredDissolve, .diagonal, .shutterOpen,
   .wipeStrip .down, .wipeStrip .up, .wipeStrip .right, .wipeStrip .left, .vwipeCheckerboard,
   .hwipeInterlace, .wipe .down, .wipe .up, .wipe .right, .wipe .left, .pixellate,
   .dissolveToZoomOut, .maskWipe .forward, .maskWipe .reverse, .fadeIn, .fadeOut,
   .maskWhiteOut .forward, .dissolveToPush .up, .dissolveToPush .down, .dissolveToPush .left,
   .dissolveToPush .right, .rotate .counterclockwise, .rotate .clockwise, .newZoomOut,
   .oldZoomIn, .vwave, .hwave, .xrotateWave .counterclockwise, .xrotateWave .clockwise,
   .xrotate .counterclockwise, .xrotate .clockwise, .maskDissolve .forward, .stretch,
   .maskDissolve .reverse, .maskWhiteOut .reverse]

/-- The name of a transition. -/
def name : Transition → String
  | cut => "none"
  | wipe towards => "wipe_" ++ towards.name
  | wipeStrip towards => "wipe_" ++ towards.name ++ "_strip"
  | wipeAllStrip towards => "wipe_" ++ towards.name ++ "_all_strip"
  | vwipeInterlace => "vwipe_interlace"
  | hwipeInterlace => "hwipe_interlace"
  | vwipeCheckerboard => "vwipe_checkerboard"
  | ditheredDissolve => "dithered_dissolve"
  | pixellate => "pixellate"
  | diagonal => "diagonal"
  | boxes => "boxes"
  | shutterOpen => "shutter_open"
  | zoomOut => "zoom_out"
  | dissolveToZoomOut => "dissolve_to_zoom_out"
  | dissolveToPush towards => "dissolve_to_push_" ++ towards.name
  | fadeIn => "fade_in"
  | fadeOut => "fade_out"
  | maskWipe .forward => "mask_wipe"
  | maskWipe .reverse => "mask_wipe_r"
  | maskDissolve .forward => "mask_dissolve"
  | maskDissolve .reverse => "mask_dissolve_r"
  | maskWhiteOut .forward => "mask_dissolve_white_out"
  | maskWhiteOut .reverse => "mask_dissolve_r_white_out"
  | newZoomOut => "new_dissolve_to_zoom_out_while_image_dissolve_r_to_new"
  | oldZoomIn => "old_dissolve_to_zoom_in_while_image_dissolve_to_new"
  | rotate .counterclockwise => "rotate_90_ccw"
  | rotate .clockwise => "rotate_90_cw"
  | xrotate .counterclockwise => "xrotate_new_ccw"
  | xrotate .clockwise => "xrotate_new_cw"
  | xrotateWave .counterclockwise => "xrotate_new_ccw_with_vwave"
  | xrotateWave .clockwise => "xrotate_new_cw_with_vwave"
  | vwave => "vwave"
  | hwave => "hwave"
  | stretch => "stretch"

/-- The transition of a name. -/
def ofName? (s : String) : Option Transition :=
  all.find? (·.name == s)

end Transition

end Rio
