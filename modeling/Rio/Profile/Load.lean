import Rio.Json.Reader
import Rio.Profile.Basic

/-!
# Loading profiles

A profile is read from JSON. Keys that are left out keep their defaults and unknown keys are passed
over. Nothing is converted: a number is no flag of truth and a text no number. A record may also be
written as an array of its fields in order, trailing ones left out if they have a default.
-/

namespace Rio.Profile

/-- Why a profile could not be loaded. -/
inductive LoadError where
  /-- The text is no JSON, or a value in it has the wrong form. -/
  | malformed
  | unknownEncoding (label : String)
  | emptyBank (bank : FlagBank)
  | noBanks
deriving Repr, DecidableEq

/-- What is said of an error. -/
def LoadError.message : LoadError → String
  | malformed => "Invalid settings JSON"
  | unknownEncoding label => "Unknown text encoding `" ++ label ++ "`"
  | emptyBank bank =>
    "Flag bank `" ++ bank.name ++ "` has an empty range " ++ toString bank.first ++ "..=" ++
      toString bank.last
  | noBanks => "At least one flag bank is required"

open Json (Value Literal)

/-! ## Scalars -/

/-- A truth value. -/
def readBool : Value → Option Bool
  | .bool b => some b
  | _ => none

/-- A text. -/
def readText : Value → Option String
  | .string s => s.text?
  | _ => none

/-- A text, or nothing for `null`. -/
def readOptionalText : Value → Option (Option String)
  | .null => some none
  | v => (readText v).map some

/-- A natural number below a bound. -/
def readNatBelow (bound : Nat) : Value → Option Nat
  | .number n => n.natural?.filter (· < bound)
  | _ => none

/-- An address, which has 32 bits. -/
def readAddress (v : Value) : Option Nat :=
  readNatBelow 0x100000000 v

/-- One of a number of names. A name may also be written as the key of an object that holds
`null`. -/
def readChoice {α : Type} (choices : List (String × α)) : Value → Option α
  | .string s => s.text?.bind fun name => choices.lookup name
  | .object [(key, .null)] => key.text?.bind fun name => choices.lookup name
  | _ => none

/-- A list. -/
def readList {α : Type} (read : Value → Option α) : Value → Option (List α)
  | .array items => items.mapM read
  | _ => none

/-- A map, of whose equal keys the last one counts. -/
def readKeyed {κ α : Type} [LT κ] [DecidableLT κ] (readKey : Literal → Option κ)
    (read : Value → Option α) : Value → Option (Keyed κ α)
  | .object members => do
    let entries ← members.mapM fun (key, value) => return (← readKey key, ← read value)
    return entries.foldl (fun map (key, value) => Keyed.insert key value map) []
  | _ => none

/-- An address written as a key: a number as JSON writes it, without escapes. -/
def readAddressKey (key : Literal) : Option Nat :=
  match Json.readMagnitude false key.raw with
  | some (v, []) => readAddress v
  | _ => none

/-- A key of one character. -/
def readCharKey (key : Literal) : Option Char :=
  match key.text?.map String.toList with
  | some [c] => some c
  | _ => none

/-! ## Records -/

/-- The values of a record's fields, by the order of the fields. Of an object, unknown keys are
passed over and a known key may come once; an array may not be longer than the record. -/
def readFields (fields : List String) : Value → Option (List (Option Value))
  | .object members => do
    let named ← members.mapM fun (key, value) => return (← key.text?, value)
    let known := (named.map (·.1)).filter fields.contains
    if known.eraseDups.length == known.length then
      some (fields.map fun field => named.lookup field)
    else none
  | .array items =>
    if items.length ≤ fields.length then
      some ((List.range fields.length).map fun k => items[k]?)
    else none
  | _ => none

/-- A field that keeps its default if it is left out. -/
def orDefault {α : Type} (default : α) (read : Value → Option α) : Option Value → Option α
  | none => some default
  | some v => read v

/-- A field that has to be there. -/
def required {α : Type} (read : Value → Option α) (v : Option Value) : Option α :=
  v.bind read

/-- An opcode version. -/
def readVersion : Value → Option Version :=
  readChoice [("default", .standard), ("ymk", .ymk), ("io", .io)]

/-- A policy. -/
def readPolicy : Value → Option Policy :=
  readChoice [("include", .allow), ("exclude", .exclude), ("hint", .hint)]

/-- A category of flags. -/
def readCategory : Value → Option FlagCategory :=
  readChoice
    [("uncategorized", .uncategorized), ("story", .story), ("unlock", .unlock), ("system", .system)]

/-- An entry of the flag table. -/
def readFlagEntry (v : Value) : Option FlagEntry := do
  match ← readFields ["name", "policy", "category"] v with
  | [name, policy, category] =>
    return {
      name := ← orDefault none readOptionalText name
      policy := ← orDefault .allow readPolicy policy
      category := ← orDefault .uncategorized readCategory category }
  | _ => none

/-- A flag bank. -/
def readFlagBank (v : Value) : Option FlagBank := do
  match ← readFields ["first", "last", "name"] v with
  | [first, last, name] =>
    return {
      first := ← required readAddress first
      last := ← required readAddress last
      name := ← required readText name }
  | _ => none

/-- A character. -/
def readCharacter (v : Value) : Option Character := do
  match ← readFields ["symbol", "name", "who_color"] v with
  | [symbol, name, whoColor] =>
    return {
      symbol := ← required readText symbol
      name := ← required readText name
      whoColor := ← orDefault none readOptionalText whoColor }
  | _ => none

/-- A voice match. -/
def readVoiceMatch (v : Value) : Option VoiceMatch := do
  match ← readFields ["prefix", "symbol"] v with
  | [start, symbol] =>
    return {
      start := ← required readText start
      symbol := ← required readText symbol }
  | _ => none

/-- An end of a range of scenes. -/
def readRangeMark (v : Value) : Option RangeMark := do
  match ← readFields ["script", "addr", "insert_transition"] v with
  | [script, addr, insertTransition] =>
    return {
      script := ← required readText script
      addr := ← required readAddress addr
      insertTransition := ← orDefault false readBool insertTransition }
  | _ => none

/-- A range of scenes. -/
def readSkipRange (v : Value) : Option SkipRange := do
  match ← readFields ["begin", "end"] v with
  | [start, stop] =>
    return {
      start := ← required readRangeMark start
      stop := ← required readRangeMark stop }
  | _ => none

/-- The ranges of scenes that may be skipped. -/
def readAdultSkip (v : Value) : Option AdultSkip := do
  match ← readFields ["enabled", "variable", "ranges"] v with
  | [enabled, variableName, ranges] =>
    return {
      enabled := ← orDefault false readBool enabled
      variableName := ← orDefault "hentai" readText variableName
      ranges := ← orDefault [] (readList readSkipRange) ranges }
  | _ => none

/-! ## Hooks

An action is told by its `kind`, which may stand anywhere in it. What the other fields mean is known
only then, so all of them are held first, the unknown ones too. -/

/-- How deep the fields of an action may nest: 127 levels in all, less the four that lead to
them. -/
def hookDepth : Nat := 123

/-- An action from its kind and the value of its other fields. -/
def readHookFields (kind : String) (v : Value) : Option HookAction :=
  if kind == "statement" then do
    match ← readFields ["text"] v with
    | [text] => return .statement (← required readText text)
    | _ => none
  else if kind == "stub_foreground" then do
    match ← readFields ["slot", "reference"] v with
    | [slot, reference] =>
      return .standIn (← required (readNatBelow 0x10000000000000000) slot)
        (← required readText reference)
    | _ => none
  else none

/-- An action that goes with a call. -/
def readHook : Value → Option HookAction
  | .object members => do
    let (kinds, others) := members.partition fun (key, _) => key.text? == some "kind"
    if Json.membersHoldable hookDepth others then
      match kinds with
      | [(_, kind)] => readHookFields (← readText kind) (.object others)
      | _ => none
    else none
  | .array (kind :: others) => do
    if Json.itemsHoldable hookDepth others then
      readHookFields (← readText kind) (.array others)
    else none
  | _ => none

/-! ## Profiles -/

/-- The fields of a profile, in order. -/
def fieldNames : List String :=
  ["opcode_version", "accurate_zorder", "use_atl_matrixcolor", "use_gfx_next",
   "force_include_disasm", "text_encoding", "move_previous_say_into_menu",
   "character_table_lookup", "character_namespace", "characters", "voice_matches",
   "detect_animation_skip", "remove_orphan_with", "weather_layer", "audio_symbol_only",
   "resolve_emoji", "emoji_font", "emoji_table", "flag_banks", "flags", "call_hooks", "adult_skip"]

/-- Settings from a JSON value. -/
def ofJson? (v : Value) : Option Settings := do
  let defaults : Settings := {}
  match ← readFields fieldNames v with
  | [version, accurateZorder, useAtlMatrixcolor, useGfxNext, includeListing, textEncoding,
      moveSayIntoMenu, characterLookup, characterNamespace, characters, voiceMatches,
      detectAnimationSkip, removeOrphanWith, weatherLayer, audioSymbolOnly, resolveEmoji, emojiFont,
      emojiTable, flagBanks, flags, callHooks, adultSkip] =>
    return {
      version := ← orDefault defaults.version readVersion version
      accurateZorder := ← orDefault defaults.accurateZorder readBool accurateZorder
      useAtlMatrixcolor := ← orDefault defaults.useAtlMatrixcolor readBool useAtlMatrixcolor
      useGfxNext := ← orDefault defaults.useGfxNext readBool useGfxNext
      includeListing := ← orDefault defaults.includeListing readBool includeListing
      textEncoding := ← orDefault defaults.textEncoding readText textEncoding
      moveSayIntoMenu := ← orDefault defaults.moveSayIntoMenu readBool moveSayIntoMenu
      characterLookup := ← orDefault defaults.characterLookup readBool characterLookup
      characterNamespace :=
        ← orDefault defaults.characterNamespace readOptionalText characterNamespace
      characters := ← orDefault defaults.characters (readList readCharacter) characters
      voiceMatches := ← orDefault defaults.voiceMatches (readList readVoiceMatch) voiceMatches
      detectAnimationSkip := ← orDefault defaults.detectAnimationSkip readBool detectAnimationSkip
      removeOrphanWith := ← orDefault defaults.removeOrphanWith readBool removeOrphanWith
      weatherLayer := ← orDefault defaults.weatherLayer readOptionalText weatherLayer
      audioSymbolOnly := ← orDefault defaults.audioSymbolOnly readBool audioSymbolOnly
      resolveEmoji := ← orDefault defaults.resolveEmoji readBool resolveEmoji
      emojiFont := ← orDefault defaults.emojiFont readOptionalText emojiFont
      emojiTable := ← orDefault defaults.emojiTable (readKeyed readCharKey readText) emojiTable
      flagBanks := ← orDefault defaults.flagBanks (readList readFlagBank) flagBanks
      flags := ← orDefault defaults.flags (readKeyed readAddressKey readFlagEntry) flags
      callHooks :=
        ← orDefault defaults.callHooks (readKeyed Literal.text? (readList readHook)) callHooks
      adultSkip := ← orDefault defaults.adultSkip readAdultSkip adultSkip }
  | _ => none

/-- What is wrong with settings of the right form: the encoding is looked at first, then the banks
in order, then whether there are any. -/
def fault? (s : Settings) : Option LoadError :=
  if (Charset.ofLabel? s.textEncoding).isNone then some (.unknownEncoding s.textEncoding)
  else
    match s.flagBanks.find? fun bank => bank.last < bank.first with
    | some bank => some (.emptyBank bank)
    | none => if s.flagBanks.isEmpty then some .noBanks else none

/-- Loads a profile from the text of a settings file. -/
def load (text : String) (readers : Charset.Readers := .ascii) : Except LoadError Profile :=
  match (Json.read? text).bind ofJson? with
  | none => .error .malformed
  | some settings =>
    match fault? settings with
    | some e => .error e
    | none => .ok { toSettings := settings, readers }

end Rio.Profile
