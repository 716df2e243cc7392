import Rio.Bytecode.Table
import Rio.Charset.Decode
import Rio.Literal.Dialogue
import Rio.Unicode.Case

/-!
# Title profiles

What a title needs to be told about: its engine version and encoding, how its flags are kept and
which of them a script may use, who speaks, and the choices about the output. Everything has a
default.
-/

namespace Rio

/-- A finite map, listed by increasing key. -/
abbrev Keyed (κ α : Type) := List (κ × α)

/-- Puts a value under a key; a value that was there gives way. -/
def Keyed.insert {κ α : Type} [LT κ] [DecidableLT κ] (key : κ) (value : α) :
    Keyed κ α → Keyed κ α
  | [] => [(key, value)]
  | (k, v) :: rest =>
    if key < k then (key, value) :: (k, v) :: rest
    else if k < key then (k, v) :: Keyed.insert key value rest
    else (key, value) :: rest

/-- What a script may do with a flag. -/
inductive Policy where
  /-- Read and write it. -/
  | allow
  /-- Nothing: uses are dropped. -/
  | exclude
  /-- Nothing, but a comment tells of the use. -/
  | hint
deriving Repr, DecidableEq

/-- The name of a policy. -/
def Policy.name : Policy → String
  | allow => "include"
  | exclude => "exclude"
  | hint => "hint"

/-- What a flag is for. -/
inductive FlagCategory where
  | uncategorized
  | story
  | unlock
  | system
deriving Repr, DecidableEq

/-- The name of a category. -/
def FlagCategory.name : FlagCategory → String
  | uncategorized => "uncategorized"
  | story => "story"
  | unlock => "unlock"
  | system => "system"

/-- What is known of a flag. -/
structure FlagEntry where
  /-- The name scripts use for it, if it has one. -/
  name : Option String := none
  policy : Policy := .allow
  category : FlagCategory := .uncategorized
deriving Repr, DecidableEq

/-- A range of flag addresses, ends included, that is kept in one container. -/
structure FlagBank where
  first : Nat
  last : Nat
  /-- The expression of the container. -/
  name : String
deriving Repr, DecidableEq

/-- Whether a bank keeps the flag at an address. -/
def FlagBank.contains (bank : FlagBank) (addr : Nat) : Bool :=
  bank.first ≤ addr && addr ≤ bank.last

/-- Whether a bank outlives a playthrough. -/
def FlagBank.isPersistent (bank : FlagBank) : Bool :=
  "persistent.".toList.isPrefixOf bank.name.toList

/-- A speaking character. -/
structure Character where
  symbol : String
  /-- The name as scripts show it. -/
  name : String
  whoColor : Option String := none
deriving Repr, DecidableEq

/-- The start of a voice file's name that tells who speaks. -/
structure VoiceMatch where
  start : String
  symbol : String
deriving Repr, DecidableEq

/-- What a call of a procedure brings about besides the call. -/
inductive HookAction where
  /-- A statement of its own. -/
  | statement (text : String)
  /-- An object that is drawn elsewhere takes a foreground place. -/
  | standIn (slot : Nat) (reference : String)
deriving Repr, DecidableEq

/-- One end of a range of scenes to skip. -/
structure RangeMark where
  script : String
  addr : Nat
  insertTransition : Bool := false
deriving Repr, DecidableEq

/-- A range of scenes to skip. -/
structure SkipRange where
  start : RangeMark
  stop : RangeMark
deriving Repr, DecidableEq

/-- The scenes that are only shown on request. -/
structure AdultSkip where
  enabled : Bool := false
  /-- The persistent variable that asks for them. -/
  variableName : String := "hentai"
  ranges : List SkipRange := []
deriving Repr, DecidableEq

/-- The flags that the engine itself uses. -/
def systemFlags : Keyed Nat FlagEntry :=
  [(700, "cgdisp_page_num", Policy.hint), (709, "has_bgm", .hint),
   (720, "current_event_id", .allow), (723, "has_bg", .hint), (756, "option_group", .allow),
   (762, "cutscene_index", .allow), (763, "cutscene_unskippable", .allow),
   (765, "ctr_cg", .hint), (850, "has_opt_0", .allow),
   (851, "has_opt_1", .allow), (852, "has_opt_2", .allow), (853, "has_opt_3", .allow),
   (993, "typewriter_effect_duration", .hint), (995, "in_event_view_mode", .allow),
   (996, "performing_transition", .hint), (998, "skipping", .allow),
   (10007, "system_keycode", .hint)].map
    fun (addr, name, policy) => (addr, ⟨some name, policy, .system⟩)

/-- What the settings file of a title can say. -/
structure Settings where
  version : Version := .standard
  /-- Give foregrounds their depth explicitly. -/
  accurateZorder : Bool := false
  /-- Tint by a colour matrix rather than by wrapping the image. -/
  useAtlMatrixcolor : Bool := false
  /-- Use the transitions of the newer graphics runtime. -/
  useGfxNext : Bool := false
  /-- Put the listing of an instruction before what it becomes. -/
  includeListing : Bool := true
  /-- The label of the scripts' encoding. -/
  textEncoding : String := "shift_jis"
  /-- Let the last line of dialogue before a menu stand in the menu. -/
  moveSayIntoMenu : Bool := true
  /-- Name speakers by their symbols. -/
  characterLookup : Bool := false
  characterNamespace : Option String := some "chara"
  characters : List Character := []
  voiceMatches : List VoiceMatch := []
  /-- Animate only what the script would not skip. -/
  detectAnimationSkip : Bool := true
  /-- Drop transitions that follow no change on screen. -/
  removeOrphanWith : Bool := true
  weatherLayer : Option String := some "weather"
  /-- Name sounds without folder and extension. -/
  audioSymbolOnly : Bool := true
  resolveEmoji : Bool := false
  emojiFont : Option String := none
  emojiTable : Keyed Char String := []
  flagBanks : List FlagBank :=
    [⟨0, 999, "will_flagbank"⟩, ⟨1000, 2999, "persistent.will_flagbank"⟩]
  flags : Keyed Nat FlagEntry := systemFlags
  /-- Actions by the upper-case name of the procedure called. -/
  callHooks : Keyed String (List HookAction) := []
  adultSkip : AdultSkip := {}
deriving Repr, DecidableEq

/-- The profile of a title: its settings, and how scripts are read in encodings that have no table
here. -/
structure Profile extends Settings where
  readers : Charset.Readers := .ascii

namespace Profile

/-- The encoding of the scripts; Shift_JIS if the label names none. -/
def charset (p : Profile) : Charset :=
  (Charset.ofLabel? p.textEncoding).getD .shiftJis

/-- The text of script bytes. -/
def text (p : Profile) (raw : List UInt8) : String :=
  p.charset.decode raw p.readers

/-- What is known of the flag at an address. -/
def flag? (p : Profile) (addr : Nat) : Option FlagEntry :=
  p.flags.lookup addr

/-- The name of the flag at an address. -/
def flagName? (p : Profile) (addr : Nat) : Option String :=
  (p.flag? addr).bind (·.name)

/-- The bank that keeps the flag at an address: the first that contains it. -/
def bankFor? (p : Profile) (addr : Nat) : Option FlagBank :=
  p.flagBanks.find? (·.contains addr)

/-- The symbol of the character with a shown name. -/
def symbolOf? (p : Profile) (name : String) : Option String :=
  (p.characters.find? (·.name == name)).map (·.symbol)

/-- The character with a symbol. -/
def character? (p : Profile) (symbol : String) : Option Character :=
  p.characters.find? (·.symbol == symbol)

/-- A symbol inside the characters' namespace. -/
def qualify (p : Profile) (symbol : String) : String :=
  match p.characterNamespace with
  | some space => space ++ "." ++ symbol
  | none => symbol

/-- The symbol of who speaks in a voice file, by the start of its name in any case. -/
def voiceSpeaker? (p : Profile) (file : String) : Option String :=
  let lower := (Unicode.toLower file).toList
  (p.voiceMatches.find? fun m => (Unicode.toLower m.start).toList.isPrefixOf lower).map (·.symbol)

/-- The actions that go with a call of a procedure. -/
def hooks (p : Profile) (procedure : String) : List HookAction :=
  (p.callHooks.lookup procedure).getD []

/-- The emoji that dialogue is to use. -/
def emoji? (p : Profile) : Option Literal.Emoji :=
  if p.resolveEmoji then some ⟨p.emojiTable, p.emojiFont⟩ else none

end Profile

end Rio
