import Rio.Bytecode.Layout

/-!
# Operation tables

Which operation a byte stands for and how its operands are laid out. All engine versions share one
base table; a version may lay a few entries of its own over it.
-/

namespace Rio

/-- The version of the engine that a script was compiled for. -/
inductive Version where
  | standard
  | ymk
  | io
deriving Repr, DecidableEq, Inhabited

/-- The name of a version. -/
def Version.name : Version → String
  | standard => "default"
  | ymk => "ymk"
  | io => "io"

/-- The version of a name, in any ASCII case; an underscore names the standard one too. -/
def Version.ofName? (s : String) : Option Version :=
  let lower := String.ofList (s.toList.map Char.toLower)
  if lower == "default" || lower == "_" then some standard
  else if lower == "ymk" then some ymk
  else if lower == "io" then some io
  else none

/-- What is said of a name that names no version. -/
def Version.unknownMessage (s : String) : String :=
  "unknown opcode version `" ++ s ++ "` (expected default, ymk or io)"

namespace Bytecode

/-- The operations that all versions share unless they lay their own over them. -/
def baseEntries : List (UInt8 × Descriptor) :=
  [(0x00, ⟨.unnamed 0x00, .fields [], none⟩),
   (0x01, ⟨.jmp, .fields [.u8, .u16, .i16, .i32], some .branch⟩),
   (0x02, ⟨.option, .fields [.u16], some .options⟩),
   (0x03, ⟨.set, .fields [.u8, .u16, .u8, .i16], some .assign⟩),
   (0x04, ⟨.exit, .bare, none⟩),
   (0x05, ⟨.applyTimer, .fields [], none⟩),
   (0x06, ⟨.jmpOffset, .fields [.i32], none⟩),
   (0x07, ⟨.goto, .fields [.cstr], none⟩),
   (0x08, ⟨.textSizeModifier, .fields [.u8], none⟩),
   (0x09, ⟨.call, .fields [.cstr], none⟩),
   (0x0a, ⟨.ret, .fields [], none⟩),
   (0x0b, ⟨.setTimer, .fields [.u8], none⟩),
   (0x21, ⟨.bgm, .fields [.u8, .i16, .u8, .cstr], none⟩),
   (0x22, ⟨.bgmStop, .fields [.u8, .i16], none⟩),
   (0x23, ⟨.voice, .fields [.u8, .i16, .u8, .u8, .i16, .cstr], none⟩),
   (0x25, ⟨.se, .fields [.i8, .u8, .u8, .u8, .i16, .i8, .i8, .pad, .cstr], none⟩),
   (0x26, ⟨.seStop, .fields [.i8], none⟩),
   (0x28, ⟨.unnamed 0x28, .fields [.u8, .u8, .i16], none⟩),
   (0x29, ⟨.seFadeout, .fields [.i8, .i16], none⟩),
   (0x30, ⟨.wait30, .fields [.u8, .i16], none⟩),
   (0x41, ⟨.textN, .fields [.i16, .pad, .cstr], none⟩),
   (0x42, ⟨.textC, .fields [.i16, .pad, .pad, .cstr, .cstr], none⟩),
   (0x43, ⟨.uiLoadAnm, .fields [.i32, .i16, .cstr], none⟩),
   (0x45, ⟨.uiShowAnm, .fields [.u8, .i16], none⟩),
   (0x46, ⟨.bg, .fields [.i16, .i16, .i16, .i16, .u8, .cstr], none⟩),
   (0x47, ⟨.bgColor, .fields [.u8], none⟩),
   (0x48, ⟨.fg, .fields [.u8, .i16, .i16, .i16, .i16, .u8, .u8, .cstr], none⟩),
   (0x49, ⟨.layer1Cl, .fields [.i16], none⟩),
   (0x4a, ⟨.transition, .fields [.u8, .i16], some .transition⟩),
   (0x4b, ⟨.addAnimationKeyFrame, .fields [.u8, .i16, .i16, .i16, .i16, .i16], none⟩),
   (0x4c, ⟨.playAnimation, .fields [.u8], none⟩),
   (0x4d, ⟨.screenEffect, .fields [.u8, .u8, .i16], none⟩),
   (0x4e, ⟨.weather, .fields [.u8, .u8, .u8], none⟩),
   (0x4f, ⟨.uiHideAnm, .fields [.u8, .i16], none⟩),
   (0x50, ⟨.uiLoadTable, .fields [.cstr], none⟩),
   (0x51, ⟨.uiReadClick, .fields [.u16, .u16], none⟩),
   (0x52, ⟨.seWait, .fields [.u8], none⟩),
   (0x54, ⟨.setTransMask, .fields [.cstr], none⟩),
   (0x55, ⟨.unnamed 0x55, .fields [], none⟩),
   (0x61, ⟨.video, .fields [.u8, .cstr], none⟩),
   (0x62, ⟨.clearScreenEffect, .fields [], none⟩),
   (0x64, ⟨.fgTransform, .fields [.u8, .i16, .i16], none⟩),
   (0x68, ⟨.bgVp, .fields [.i16, .i16, .i16], none⟩),
   (0x71, ⟨.sideImage, .fields [.cstr], none⟩),
   (0x72, ⟨.hideSideImage, .fields [], none⟩),
   (0x73, ⟨.obj, .fields [.i16, .i16, .i16, .i16, .u8, .cstr], none⟩),
   (0x74, ⟨.objCl, .fields [.u8], none⟩),
   (0x78, ⟨.unnamed 0x78, .fields [.u8, .u8, .u8, .u8, .u8, .u8, .u8], none⟩),
   (0x82, ⟨.sleep, .fields [.i16], none⟩),
   (0x83, ⟨.openLoadMenu, .fields [], none⟩),
   (0x84, ⟨.openSaveMenu, .fields [], none⟩),
   (0x85, ⟨.blockSavegameAccess, .fields [.u8], none⟩),
   (0x86, ⟨.unk86Delay, .fields [.u8], none⟩),
   (0x88, ⟨.initiateBattle, .fields [.u8, .u8], none⟩),
   (0x89, ⟨.unnamed 0x89, .fields [], none⟩),
   (0x8b, ⟨.openPreferencesMenu, .fields [], none⟩),
   (0x8c, ⟨.eventId, .fields [.i16], none⟩),
   (0x8e, ⟨.highlightVisitedOptions, .fields [], none⟩),
   (0xa9, ⟨.unnamed 0xa9, .fields [], none⟩),
   (0xae, ⟨.unnamed 0xae, .fields [], none⟩),
   (0xb3, ⟨.unnamed 0xb3, .fields [.u8], none⟩),
   (0xb6, ⟨.textExtend, .fields [.i16, .cstr], none⟩),
   (0xb8, ⟨.layer2Cl, .fields [.i16], none⟩),
   (0xb9, ⟨.tint, .fields [.u8], none⟩),
   (0xbd, ⟨.unnamed 0xbd, .fields [.u8], none⟩),
   (0xe0, ⟨.eventName, .fields [.cstr], none⟩),
   (0xe2, ⟨.quickLoad, .fields [], none⟩),
   (0xe4, ⟨.unnamed 0xe4, .fields [.u8], none⟩),
   (0xe6, ⟨.unnamed 0xe6, .fields [.u8], none⟩),
   (0xe7, ⟨.unnamed 0xe7, .fields [.u8, .u8], none⟩),
   (0xff, ⟨.eof, .bare, none⟩)]

/-- The operations of the early titles. -/
def ymkEntries : List (UInt8 × Descriptor) :=
  [(0x21, ⟨.bgmNoarg3, .fields [.u8, .i16, .cstr], none⟩),
   (0x28, ⟨.op28TwoArg, .fields [.u8, .u8], none⟩),
   (0x25, ⟨.seNoarg8, .fields [.i8, .u8, .u8, .u8, .i16, .i8, .i8, .cstr], none⟩),
   (0x48, ⟨.fgNoarg7, .fields [.u8, .i16, .i16, .i16, .i16, .u8, .cstr], none⟩),
   (0x4c, ⟨.playAnimationNoskip, .fields [], none⟩),
   (0x64, ⟨.fgTransformAll8, .fields [.u8, .u8, .u8], none⟩)]

/-- The operations of the later titles. -/
def ioEntries : List (UInt8 × Descriptor) :=
  [(0x05, ⟨.applyTimerIo, .fields [.u8], none⟩),
   (0x21, ⟨.bgmIo, .fields [.u8, .i16, .u8, .i16, .i16, .i16, .cstr], none⟩),
   (0x25, ⟨.seIo, .fields [.i8, .u8, .u8, .u8, .i16, .i8, .i8, .pad, .i16, .cstr], none⟩),
   (0x41, ⟨.textNIo, .fields [.i16, .pad, .u8, .cstr], none⟩),
   (0x4a, ⟨.transitionIo, .fields [.u8, .i16, .i16], some .transition⟩),
   (0xb9, ⟨.tintIo, .fields [.u8, .u8], none⟩),
   (0xff, ⟨.eofIo, .fields [.u8, .u8, .u8, .u8, .u8, .u8, .u8, .u8, .u8, .u8, .u8], none⟩)]

end Bytecode

namespace Version

/-- The entries a version lays over the base table. -/
def overlay : Version → List (UInt8 × Bytecode.Descriptor)
  | standard => []
  | ymk => Bytecode.ymkEntries
  | io => Bytecode.ioEntries

/-- What a byte stands for as an operation, if it is known. -/
def descriptor? (v : Version) (op : UInt8) : Option Bytecode.Descriptor :=
  (v.overlay ++ Bytecode.baseEntries).lookup op

end Version

end Rio
