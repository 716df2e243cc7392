import Rio.Screenplay.Scenery

/-!
# Transitions

A transition draws what changed and shows the change by an effect. A transition without an effect of
its own is shown as a dissolve.
-/

namespace Rio.Screenplay

/-- The shortest time of a transition in seconds: the new picture is seen for one frame. -/
def shortestTransition : Float := 0.016

/-- The time of a transition as it is written. -/
def transitionTime (ms : Int) : String :=
  let time := Numeral.seconds ms
  Numeral.ofFloat (if time < shortestTransition then shortestTransition else time)

/-- The last argument of an effect that runs its mask through in reverse. -/
def senseArgument : MaskSense → String
  | .forward => ""
  | .reverse => ", reverse=True"

/-- The effect of a transition that runs by a mask. -/
def maskedEffect? (t : Transition) (mask time : String) : Option String :=
  let arguments := "('mask " ++ Unicode.toUpper mask ++ "', " ++ time
  match t with
  | .maskWipe sense => some ("WillImageDissolveSR" ++ arguments ++ senseArgument sense ++ ")")
  | .maskDissolve sense => some ("WillImageDissolve" ++ arguments ++ senseArgument sense ++ ")")
  | .maskWhiteOut sense =>
    some ("WillImageDissolveToWhiteOut" ++ arguments ++ senseArgument sense ++ ")")
  | .newZoomOut => some ("WillND2ZOWIDR2N" ++ arguments ++ ")")
  | .oldZoomIn => some ("WillOD2ZIWID2N" ++ arguments ++ ")")
  | _ => none

/-- Whether a transition runs by a mask. -/
def isMasked (t : Transition) : Bool :=
  (maskedEffect? t "" "").isSome

/-- Whether a transition needs the newer graphics runtime. -/
def isGfxNext : Transition → Bool
  | .vwave | .hwave | .xrotateWave _ | .stretch => true
  | _ => false

/-- The effect of a transition that needs the newer graphics runtime. -/
def gfxNextEffect? (time : String) : Transition → Option String
  | .vwave | .xrotateWave _ => some ("WillWave(" ++ time ++ ")")
  | .hwave => some ("WillWave(" ++ time ++ ", mode='horizontal')")
  | .stretch => some ("WillStretch(" ++ time ++ ")")
  | _ => none

/-- The effect of a transition that needs nothing else. -/
def plainEffect? (time : String) : Transition → Option String
  | .cut => some "Pause(0.016)"
  | .fadeOut => some ("WillFadeOut(" ++ time ++ ")")
  | .fadeIn => some ("Dissolve(" ++ time ++ ")")
  | .pixellate => some ("Pixellate(" ++ time ++ ", 8)")
  | .diagonal => some ("WillDiagonalStrip(" ++ time ++ ")")
  | .boxes => some ("WillBoxes(" ++ time ++ ")")
  | .dissolveToZoomOut => some ("WillDissolveToZoomOut(" ++ time ++ ")")
  | .zoomOut => some ("WillZoomOut(" ++ time ++ ")")
  | .shutterOpen => some ("WillShutterOpen(" ++ time ++ ")")
  | .vwipeCheckerboard => some ("WillWipeCheckboard(" ++ time ++ ")")
  | .xrotate .counterclockwise => some ("WillXRotate(" ++ time ++ ")")
  | .xrotate .clockwise => some ("WillXRotate(" ++ time ++ ", new_dir_cw=True)")
  | .wipe towards => some ("CropMove(" ++ time ++ ", mode='wipe" ++ towards.name ++ "')")
  | .dissolveToPush towards =>
    some ("WillDissolveToPush(" ++ time ++ ", 'push" ++ towards.name ++ "')")
  | .wipeAllStrip towards => some ("WillWipeAllStrip(" ++ time ++ ", 'wipe" ++ towards.name ++ "')")
  | .wipeStrip towards => some ("WillWipeStrip(" ++ time ++ ", 'wipe" ++ towards.name ++ "')")
  | _ => none

/-- A dissolve in place of an effect, with a remark. -/
def dissolve (s : State) (time : String) (r : Renpy.Remark) : State :=
  (s.remark r).emit (.effect ("Dissolve(" ++ time ++ ")"))

/-- The effect of a transition. -/
def showEffect (c : Context) (s : State) (addr : Nat) (method : Method) (ms : Int) : Step :=
  let time := transitionTime ms
  let unknown := dissolve s time (.unknownTransition method.name time)
  match method with
  | .code _ => .ok unknown
  | .named t =>
    if isMasked t then
      match s.stage.mask.bind fun mask => maskedEffect? t mask time with
      | some effect => .ok (s.emit (.effect effect))
      | none => s.halt (.missingMask addr t.name)
    else if isGfxNext t then
      match c.profile.useGfxNext, gfxNextEffect? time t with
      | true, some effect => .ok (s.emit (.effect effect))
      | _, _ => .ok (dissolve s time (.needsGfxNext t.name))
    else
      match plainEffect? time t with
      | some effect => .ok (s.emit (.effect effect))
      | none => .ok unknown

/-- A transition: draws what changed, and shows the effect unless nothing changed and such effects
are to be left out. -/
def transition (c : Context) (s : State) (addr : Nat) (method : Method) (ms : Int) : Step :=
  let (changed, s) := draw c s
  if !changed && c.profile.removeOrphanWith then .ok s else showEffect c s addr method ms

end Rio.Screenplay
