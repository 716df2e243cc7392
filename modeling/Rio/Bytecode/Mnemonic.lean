import Rio.Numeral.Hex

/-!
# Mnemonics

The names of instructions: every named operation of every engine version, the members of the branch
and assignment families, and the markers that a decoder puts into the stream. Operations that are
known but have no name carry their operation byte.
-/

namespace Rio

/-- The operation of an instruction. -/
inductive Mnemonic where
  /-- A known operation without a name. -/
  | unnamed (op : UInt8)
  /-- A branch whose selector is not resolved. -/
  | jmp
  | cjmp
  | jbe
  | jle
  | jeq
  | jne
  | jbt
  | jlt
  /-- An assignment whose selector is not resolved. -/
  | set
  | clr
  | mov
  | add
  | sub
  | movf
  | mod
  | rnd
  | option
  | exit
  | applyTimer
  | jmpOffset
  | goto
  | textSizeModifier
  | call
  | ret
  | setTimer
  | bgm
  | bgmStop
  | voice
  | se
  | seStop
  | seFadeout
  | wait30
  | textN
  | textC
  | uiLoadAnm
  | uiShowAnm
  | bg
  | bgColor
  | fg
  | layer1Cl
  | transition
  | addAnimationKeyFrame
  | playAnimation
  | screenEffect
  | weather
  | uiHideAnm
  | uiLoadTable
  | uiReadClick
  | seWait
  | setTransMask
  | video
  | clearScreenEffect
  | fgTransform
  | bgVp
  | sideImage
  | hideSideImage
  | obj
  | objCl
  | sleep
  | openLoadMenu
  | openSaveMenu
  | blockSavegameAccess
  | unk86Delay
  | initiateBattle
  | openPreferencesMenu
  | eventId
  | highlightVisitedOptions
  | textExtend
  | layer2Cl
  | tint
  | eventName
  | quickLoad
  | eof
  | bgmNoarg3
  | op28TwoArg
  | seNoarg8
  | fgNoarg7
  | playAnimationNoskip
  | fgTransformAll8
  | applyTimerIo
  | bgmIo
  | seIo
  | textNIo
  | transitionIo
  | tintIo
  | eofIo
  /-- Bytes that are no instruction. -/
  | invalid
  /-- Marks an instruction without its terminator. -/
  | notTerminated
  /-- Marks the end of the script. -/
  | endOfStream
deriving Repr, DecidableEq, Inhabited

/-- The comparison of a conditional branch. -/
inductive Comparison where
  | ge
  | le
  | eq
  | ne
  | gt
  | lt
deriving Repr, DecidableEq

/-- The operator as scripts write it. -/
def Comparison.symbol : Comparison → String
  | ge => ">="
  | le => "<="
  | eq => "=="
  | ne => "!="
  | gt => ">"
  | lt => "<"

namespace Mnemonic

/-- The printed name. -/
def name : Mnemonic → String
  | unnamed op => Numeral.hexLiteral op.toNat
  | jmp => "_jmp"
  | cjmp => "_cjmp"
  | jbe => "jbe"
  | jle => "jle"
  | jeq => "jeq"
  | jne => "jne"
  | jbt => "jbt"
  | jlt => "jlt"
  | set => "_set"
  | clr => "clr"
  | mov => "mov"
  | add => "add"
  | sub => "sub"
  | movf => "movf"
  | mod => "mod"
  | rnd => "rnd"
  | option => "option"
  | exit => "exit"
  | applyTimer => "apply_timer"
  | jmpOffset => "jmp_offset"
  | goto => "goto"
  | textSizeModifier => "text_size_modifier"
  | call => "call"
  | ret => "return"
  | setTimer => "set_timer"
  | bgm => "bgm"
  | bgmStop => "bgm_stop"
  | voice => "voice"
  | se => "se"
  | seStop => "se_stop"
  | seFadeout => "se_fadeout"
  | wait30 => "wait_30"
  | textN => "text_n"
  | textC => "text_c"
  | uiLoadAnm => "ui_load_anm"
  | uiShowAnm => "ui_show_anm"
  | bg => "bg"
  | bgColor => "bg_color"
  | fg => "fg"
  | layer1Cl => "layer1_cl"
  | transition => "transition"
  | addAnimationKeyFrame => "add_animation_key_frame"
  | playAnimation => "play_animation"
  | screenEffect => "screen_effect"
  | weather => "weather"
  | uiHideAnm => "ui_hide_anm"
  | uiLoadTable => "ui_load_table"
  | uiReadClick => "ui_read_click"
  | seWait => "se_wait"
  | setTransMask => "set_trans_mask"
  | video => "video"
  | clearScreenEffect => "clear_screen_effect"
  | fgTransform => "fg_transform"
  | bgVp => "bg_vp"
  | sideImage => "side_image"
  | hideSideImage => "hide_side_image"
  | obj => "obj"
  | objCl => "obj_cl"
  | sleep => "sleep"
  | openLoadMenu => "open_load_menu"
  | openSaveMenu => "open_save_menu"
  | blockSavegameAccess => "block_savegame_access"
  | unk86Delay => "unk_86_delay"
  | initiateBattle => "initiate_battle"
  | openPreferencesMenu => "open_preferences_menu"
  | eventId => "event_id"
  | highlightVisitedOptions => "highlight_visited_options"
  | textExtend => "text_extend"
  | layer2Cl => "layer2_cl"
  | tint => "tint"
  | eventName => "event_name"
  | quickLoad => "quick_load"
  | eof => "eof"
  | bgmNoarg3 => "bgm_noarg3"
  | op28TwoArg => "0x28_2arg"
  | seNoarg8 => "se_noarg8"
  | fgNoarg7 => "fg_noarg7"
  | playAnimationNoskip => "play_animation_noskip"
  | fgTransformAll8 => "fg_transform_all8"
  | applyTimerIo => "apply_timer_io"
  | bgmIo => "bgm_io"
  | seIo => "se_io"
  | textNIo => "text_n_io"
  | transitionIo => "transition_io"
  | tintIo => "tint_io"
  | eofIo => "eof_io"
  | invalid => "INVALID"
  | notTerminated => "NOT_TERMINATED"
  | endOfStream => "EOF"

/-- The mnemonics that have a name of their own. -/
def allNamed : List Mnemonic :=
  [.jmp, .cjmp, .jbe, .jle, .jeq, .jne, .jbt, .jlt, .set, .clr, .mov, .add, .sub, .movf, .mod,
   .rnd, .option, .exit, .applyTimer, .jmpOffset, .goto, .textSizeModifier, .call, .ret,
   .setTimer, .bgm, .bgmStop, .voice, .se, .seStop, .seFadeout, .wait30, .textN, .textC,
   .uiLoadAnm, .uiShowAnm, .bg, .bgColor, .fg, .layer1Cl, .transition, .addAnimationKeyFrame,
   .playAnimation, .screenEffect, .weather, .uiHideAnm, .uiLoadTable, .uiReadClick, .seWait,
   .setTransMask, .video, .clearScreenEffect, .fgTransform, .bgVp, .sideImage, .hideSideImage,
   .obj, .objCl, .sleep, .openLoadMenu, .openSaveMenu, .blockSavegameAccess, .unk86Delay,
   .initiateBattle, .openPreferencesMenu, .eventId, .highlightVisitedOptions, .textExtend,
   .layer2Cl, .tint, .eventName, .quickLoad, .eof, .bgmNoarg3, .op28TwoArg, .seNoarg8, .fgNoarg7,
   .playAnimationNoskip, .fgTransformAll8, .applyTimerIo, .bgmIo, .seIo, .textNIo, .transitionIo,
   .tintIo, .eofIo, .invalid, .notTerminated, .endOfStream]

/-- The mnemonic with a printed name. -/
def ofName? (s : String) : Option Mnemonic :=
  match allNamed.find? (·.name == s) with
  | some m => some m
  | none =>
    ((List.range 256).map fun n => unnamed (UInt8.ofNat n)).find? (·.name == s)

/-- The comparison that a conditional branch makes. -/
def comparison? : Mnemonic → Option Comparison
  | jbe => some .ge
  | jle => some .le
  | jeq => some .eq
  | jne => some .ne
  | jbt => some .gt
  | jlt => some .lt
  | _ => none

/-- A branch that depends on a comparison. -/
def isConditional (m : Mnemonic) : Bool :=
  m.comparison?.isSome

/-- A jump within the script. -/
def isJump : Mnemonic → Bool
  | jmpOffset => true
  | _ => false

/-- Continues in another script without coming back. -/
def isProcedureJump : Mnemonic → Bool
  | goto | option => true
  | _ => false

/-- Leaves the script. -/
def isReturn : Mnemonic → Bool
  | ret | exit | eof | eofIo => true
  | _ => false

/-- A whole line of dialogue. -/
def isSay : Mnemonic → Bool
  | textN | textC | textNIo => true
  | _ => false

/-- A line of dialogue or the continuation of one. -/
def isDialogue : Mnemonic → Bool
  | textExtend => true
  | m => m.isSay

/-- Adds a key frame to a timeline. -/
def isKeyFrame : Mnemonic → Bool
  | addAnimationKeyFrame => true
  | _ => false

/-- Plays the pending timelines. -/
def isPlay : Mnemonic → Bool
  | playAnimation | playAnimationNoskip => true
  | _ => false

end Mnemonic

end Rio
