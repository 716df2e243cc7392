import Rio.Proofs.Literal.Quoting
import Rio.Proofs.Literal.Words
import Rio.Proofs.Screenplay.FlagUse

/-!
# Lines as literals

A line of dialogue is written as a literal, after the name of its speaker as another one or after
`extend`. The tags that say how large a line is and how it appears have no quotes of their own
(`Line.wraps_inner`), so it is the text alone that decides whether a literal ends where it should:
`isBody_inner_iff`.

Where no voice tells who speaks, nobody is shown under another name (`Unvoiced`), and a speaker
that is not a character of the profile is written by name. `ofInstructions_literals` puts this
together for every line that is said for any instructions: its literal ends where it should
exactly if the groups of the text allow it. Names are copied as they are.
-/

namespace Rio.Literal

/-- Words have none of the characters that literals treat in a way of their own. -/
theorem IsWord.isBland {s : String} (h : IsWord s) : IsBland s.toList := by
  intro c hc
  have hword := h.isWordChar hc
  constructor
  · rintro rfl
    revert hword
    decide
  · rintro rfl
    revert hword
    decide

/-- As `IsBland.append`, for texts. -/
theorem isBland_append {s t : String} (hs : IsBland s.toList) (ht : IsBland t.toList) :
    IsBland (s ++ t).toList := by
  rw [String.toList_append]
  exact hs.append ht

end Rio.Literal

namespace Rio.Renpy

open Literal

/-! ## Tags around a text -/

/-- A text with nothing around it that could end a literal. -/
def Wraps (text wrapped : String) : Prop :=
  ∃ front back, IsBland front ∧ IsBland back ∧ wrapped.toList = front ++ text.toList ++ back

theorem Wraps.refl (text : String) : Wraps text text :=
  ⟨[], [], fun _ h => (by cases h), fun _ h => (by cases h), by simp⟩

theorem Wraps.of_append (text : String) {front back : String} (hfront : IsBland front.toList)
    (hback : IsBland back.toList) : Wraps text (front ++ text ++ back) :=
  ⟨front.toList, back.toList, hfront, hback, by rw [String.toList_append, String.toList_append]⟩

/-- Tags may be put around tags. -/
theorem Wraps.trans {text wrapped wrapped' : String} (h : Wraps text wrapped)
    (h' : Wraps wrapped wrapped') : Wraps text wrapped' := by
  obtain ⟨front, back, hfront, hback, heq⟩ := h
  obtain ⟨front', back', hfront', hback', heq'⟩ := h'
  refine ⟨front' ++ front, back ++ back', hfront'.append hfront, hback.append hback', ?_⟩
  rw [heq', heq]
  simp only [List.append_assoc]

/-- A size is a pair of tags, or none. -/
theorem TextSize.wraps_wrap (size : TextSize) (text : String) : Wraps text (size.wrap text) := by
  cases size with
  | normal => exact .refl text
  | large => exact .of_append text (by decide) (by decide)
  | small => exact .of_append text (by decide) (by decide)

/-- The speed of a line and the wait behind it are tags around it. -/
theorem Reveal.wraps_wrap (r : Reveal) (text : String) : Wraps text (r.wrap text) := by
  have hopening : IsBland ("\x7bcps=" ++ Numeral.ofFloat (r.speed text.length) ++ "\x7d").toList :=
    isBland_append (isBland_append (by decide) (isWord_ofFloat _).isBland) (by decide)
  have hclosing : ∀ pause : String, IsBland pause.toList →
      Wraps text (("\x7bcps=" ++ Numeral.ofFloat (r.speed text.length) ++ "\x7d") ++ text ++
        ("\x7b/cps\x7d" ++ pause ++ "\x7bnw\x7d")) := fun pause hpause =>
    .of_append text hopening (isBland_append (isBland_append (by decide) hpause) (by decide))
  unfold Reveal.wrap
  cases r.pause with
  | none => simpa only [String.append_assoc] using hclosing "" (by decide)
  | some ms =>
    have hpause : IsBland ("\x7bw=" ++ Numeral.secondsText ms ++ "\x7d").toList :=
      isBland_append (isBland_append (by decide) (isWord_ofFloat _).isBland) (by decide)
    simpa only [String.append_assoc] using hclosing _ hpause

/-- What stands between the quotes of a line. -/
def Line.inner (l : Line) : String :=
  match l.reveal with
  | some r => r.wrap (l.size.wrap l.text)
  | none => l.size.wrap l.text

theorem Line.quoted_eq (l : Line) : l.quoted = quote l.inner := rfl

/-- A line is its text with tags around it. -/
theorem Line.wraps_inner (l : Line) : Wraps l.text l.inner := by
  unfold Line.inner
  cases l.reveal with
  | none => exact l.size.wraps_wrap l.text
  | some r => exact (l.size.wraps_wrap l.text).trans (r.wraps_wrap _)

/-- The tags of a line have no part in where its literal ends. -/
theorem isBody_of_wraps {text wrapped : String} (h : Wraps (escape none text) wrapped) :
    IsBody wrapped.toList ↔ GroupsOpen text.toList := by
  obtain ⟨front, back, hfront, hback, heq⟩ := h
  rw [heq]
  exact isBody_escape_iff text hfront hback

end Rio.Renpy

namespace Rio.Screenplay

open Renpy (Line Speech Statement)
open Literal (GroupsOpen IsBody quote)

variable {c : Context} {s s' t : State} {i : Instruction} {rest : List Instruction}
  {P : Statement → Prop}
  {command : Command}

/-! ## Who is shown -/

/-- Only the voices of the profile tell who speaks next. -/
theorem Acts.nextSpeaker_eq_none (hvoices : c.profile.voiceMatches = []) (h : Acts c P s s')
    (hs : s.nextSpeaker = none) : s'.nextSpeaker = none := by
  refine h.preserves (I := fun s => s.nextSpeaker = none) (fun {s s'} hact hs => ?_) hs
  cases hact with
  | remember _ _ _ _ hspeaker => exact (hspeaker hvoices).elim id fun heq => heq.trans hs
  | place =>
    unfold State.placeLabel
    split
    · exact hs
    · exact hs
  | draw =>
    rw [draw_eq]
    exact hs
  | emit | header | remark | close | report | hold | release | ask | scope | stage | standIn =>
    exact hs

/-- Nobody is about to speak by another's voice, and nobody has been shown under another name. -/
structure Unvoiced (s : State) : Prop where
  next : s.nextSpeaker = none
  shown : ∀ speech, .say speech ∈ s.document.statements → speech.shownAs = none

/-- At the start no voice has told of a speaker. -/
theorem unvoiced_start (c : Context) : Unvoiced (start c) := by
  refine ⟨rfl, fun speech hmem => ?_⟩
  have hlabel : (start c).document.statements = [.label (.script c.name)] := rfl
  rw [hlabel] at hmem
  cases List.mem_singleton.mp hmem

namespace Unvoiced

/-- What writes no speech changes nothing. -/
theorem acts (hvoices : c.profile.voiceMatches = []) (hs : Unvoiced s)
    (h : Acts c (fun st => isSpeech st = false) s s') : Unvoiced s' := by
  refine ⟨Acts.nextSpeaker_eq_none hvoices h hs.next, fun speech hmem => ?_⟩
  obtain ⟨added, hadded, hother⟩ := h.written
  rw [hadded] at hmem
  rcases List.mem_append.mp hmem with hmem | hmem
  · exact hs.shown speech hmem
  · cases hother _ hmem

/-- Without a voice nobody is shown under another name. -/
theorem shownAs_speech (u : Utterance) (l : Line) : (u.speech c none l).shownAs = none := by
  unfold Utterance.speech
  split
  · rfl
  · next raw _ =>
    unfold namedSpeech speakerSymbol
    cases c.profile.symbolOf? (c.text raw) <;> rfl

/-- By cases on the utterance: what it says is shown without a name of its own. -/
theorem speak (hvoices : c.profile.voiceMatches = []) (hs : Unvoiced s)
    (h : Screenplay.speak c s i = .ok s') : Unvoiced s' := by
  have hacts : Acts c (fun _ => True) s s' := speak_acts (fun _ => trivial) h
  refine ⟨Acts.nextSpeaker_eq_none hvoices hacts hs.next, fun speech hmem => ?_⟩
  unfold Screenplay.speak at h
  split at h
  · split at h
    · next u hu =>
      obtain rfl := Except.ok.inj h
      have hline : Acts c (fun st => isSpeech st = false) s (line c s i.addr u.text).2 :=
        line_acts ..
      have hlined := hs.acts hvoices hline
      rw [utter_eq, hlined.next] at hmem
      change Statement.say speech ∈ ((line c s i.addr u.text).2.document.statement _).statements
        at hmem
      rw [Renpy.Document.statements_statement] at hmem
      rcases List.mem_append.mp hmem with hmem | hmem
      · exact hlined.shown speech hmem
      · cases List.mem_singleton.mp hmem
        exact shownAs_speech ..
    · cases h
  · cases h

/-- The line under a menu is said like any other. -/
theorem menu (hvoices : c.profile.voiceMatches = []) {choices : List MenuOption}
    (hmove : c.profile.moveSayIntoMenu = false → s.held = none) (hs : Unvoiced s)
    (h : Screenplay.menu c s choices = .ok s') : Unvoiced s' := by
  have hacts : ∀ t, Acts c (fun st => isSpeech st = false) t
      (choices.foldl (choice c) t).closeScope :=
    choices_acts (P := fun st => isSpeech st = false) (fun _ _ => rfl) (fun _ => rfl) rfl choices
  have hopen : Unvoiced (s.header .menu) := hs.acts hvoices (.single (.header rfl rfl rfl))
  rcases menu_cases hmove h with ⟨-, rfl⟩ | ⟨j, t, -, hspeak, rfl⟩
  · exact hopen.acts hvoices (hacts _)
  · have hreleased : Unvoiced { s.header .menu with held := none } := ⟨hopen.next, hopen.shown⟩
    exact (hreleased.speak hvoices hspeak).acts hvoices (hacts t)

/-- Only voices tell of speakers, and the profile has no voices. -/
theorem execute (hvoices : c.profile.voiceMatches = [])
    (hmove : c.profile.moveSayIntoMenu = false → s.held = none) (hs : Unvoiced s)
    (h : Screenplay.execute c i rest s command = .ok s') : Unvoiced s' := by
  cases command with
  | say =>
    change say c s i rest = .ok s' at h
    unfold say at h
    split at h
    · obtain rfl := Except.ok.inj h
      exact hs.acts hvoices (.single (.remark _))
    · exact hs.speak hvoices h
  | menu choices => exact hs.menu hvoices hmove h
  | _ =>
    refine hs.acts hvoices (execute_acts (fun st hst => ?_) (fun _ _ _ => rfl) h)
    cases st with
    | say => cases hst
    | _ => rfl

/-- On the way to an instruction nothing is said. -/
theorem step (hvoices : c.profile.voiceMatches = []) (hi : i ∈ c.instructions)
    (hmove : c.profile.moveSayIntoMenu = false → s.held = none) (hs : Unvoiced s)
    (h : Screenplay.step c s i rest = .ok s') : Unvoiced s' := by
  have hbefore : AllowedBefore c fun st => isSpeech st = false :=
    ⟨rfl, fun _ st hst => by
      cases st with
      | say => cases hst
      | _ => rfl, fun _ => rfl⟩
  cases stepped_of_ok h with
  | ending hend =>
    have hclosed : Acts c (fun st => isSpeech st = false) s (s.closeBranches i.addr) :=
      closeBranches_acts (P := fun st => isSpeech st = false) rfl _
    exact hs.acts hvoices (hclosed.tail (.place rfl rfl))
  | unhandled hend hread => exact hs.acts hvoices ((arrive_acts hbefore hi rest).remark _)
  | command hend hread hexec =>
    have harrived := hs.acts hvoices (announce_arrive_acts hbefore hi rest)
    exact harrived.execute hvoices (held_announce_arrive hmove) hexec

end Unvoiced

/-- By induction on the run. -/
theorem unvoiced_of_reached (hvoices : c.profile.voiceMatches = []) (h : Reached c rest s) :
    Unvoiced s := by
  induction h with
  | here => exact unvoiced_start c
  | @step i rest t t' hruns hstep ih =>
    exact ih.step hvoices (Runs.mem hruns) (held_of_reached hruns) hstep

/-! ## The literals of a line -/

/-- The name that an instruction gives for the speaker of its line. -/
def speakerName? (i : Instruction) : Option (List UInt8) :=
  (Command.utterance? i).bind (·.speaker)

/-- The text of the line of an instruction. -/
def lineText? (i : Instruction) : Option (List UInt8) :=
  if i.mnemonic = .textExtend then i.bytes? 1 else (Command.utterance? i).map (·.text)

/-- What comes before the literal of a line whose speaker is no character: the name, or `extend`. -/
def opening (c : Context) (i : Instruction) : String :=
  if i.mnemonic = .textExtend then "extend "
  else
    match speakerName? i with
    | some name => quote (c.text name) ++ " "
    | none => ""

/-- Without emoji, dialogue is its text with the escapes of a literal. -/
theorem dialogue_eq_escape (hemoji : c.profile.resolveEmoji = false) (raw : List UInt8) :
    c.dialogue raw = Literal.escape none (c.text raw) := by
  have hnone : c.profile.emoji? = none := by
    rw [Profile.emoji?, hemoji]
    rfl
  rw [Context.dialogue, hnone]

/-- A name of no character is shown as such, whatever a voice told, unless it is shown in place of
another. -/
theorem namedSpeech_of_unknown {p : Profile} {name : String} (hunknown : p.symbolOf? name = none)
    {voice : Option String} {l : Line} (hshown : (namedSpeech p name voice l).shownAs = none) :
    (namedSpeech p name voice l).text = quote name ++ " " ++ l.quoted := by
  have hvoice : voice = none := by
    cases voice with
    | none => rfl
    | some symbol =>
      -- the name is that of the character whose voice it is, so it is found
      have hnamed : (p.character? symbol).all (·.name != name) = false := by
        simpa [namedSpeech, speakerSymbol, hunknown] using hshown
      cases hcharacter : p.character? symbol with
      | none => simp [hcharacter] at hnamed
      | some character =>
        rw [hcharacter] at hnamed
        have hname : character.name = name := by simpa using hnamed
        have hmem : character ∈ p.characters := List.mem_of_find?_eq_some hcharacter
        have hnotFound := List.find?_eq_none.mp (Option.map_eq_none_iff.mp hunknown) character hmem
        exact absurd (beq_iff_eq.mpr hname) hnotFound
  subst hvoice
  simp [namedSpeech, speakerSymbol, hunknown, Speech.text, Renpy.Speaker.text, quote,
    String.append_assoc]

/-- A line of dialogue ends in the literal of its text, behind the literal of its speaker if that is
no known character. -/
theorem text_of_voices {st : Statement} (hemoji : c.profile.resolveEmoji = false)
    (h : Voices c i st) (hshown : ∀ speech, st = .say speech → speech.shownAs = none)
    (hunknown : ∀ name, speakerName? i = some name → c.profile.symbolOf? (c.text name) = none) :
    ∃ raw body, lineText? i = some raw ∧ st.text = opening c i ++ quote body ∧
      (IsBody body.toList ↔ GroupsOpen (c.text raw).toList) := by
  cases h with
  | @say u l voice hu htext hpause =>
    have hne : i.mnemonic ≠ .textExtend := by
      intro hm
      have hsay := isSay_of_utterance? hu
      rw [hm] at hsay
      cases hsay
    -- the line is the escaped text with tags around it, and those do not open or close a quote
    have hwraps : Renpy.Wraps (Literal.escape none (c.text u.text)) l.inner := by
      rw [← dialogue_eq_escape hemoji, ← htext]
      exact l.wraps_inner
    refine ⟨u.text, l.inner, ?_, ?_, Renpy.isBody_of_wraps hwraps⟩
    · rw [lineText?, if_neg hne, hu]
      rfl
    · rw [opening, if_neg hne]
      have hname : speakerName? i = u.speaker := by rw [speakerName?, hu, Option.bind_some]
      rw [hname] at hunknown ⊢
      have hspeech := hshown _ rfl
      show (u.speech c voice l).text = _
      unfold Utterance.speech at hspeech ⊢
      cases hspeaker : u.speaker with
      | none => simp [Speech.text, Line.quoted_eq]
      | some name =>
        simp only [hspeaker] at hspeech ⊢
        rw [namedSpeech_of_unknown (hunknown name hspeaker) hspeech, Line.quoted_eq]
  | @extend text hm htext =>
    refine ⟨text, c.dialogue text, ?_, ?_, ?_⟩
    · rw [lineText?, if_pos hm, htext]
    · rw [opening, if_pos hm]
      show "extend \"" ++ c.dialogue text ++ "\"" = _
      simp only [quote, ← String.append_assoc]
      rfl
    · rw [dialogue_eq_escape hemoji]
      exact Renpy.isBody_of_wraps (.refl _)

/-- A step that halts says nothing. -/
theorem lines_of_error {halt : Halt} (hi : i ∈ c.instructions) (h : step c s i rest = .error halt) :
    lines halt.state.document = lines s.document := by
  have harrive : Acts c (fun st => isLine st = false) s (announce c (s.arrive c i rest) i) :=
    announce_arrive_acts (allowedBefore_isLine c) hi rest
  suffices hhalted : Written (fun st => isLine st = false)
      (announce c (s.arrive c i rest) i) halt.state from
    (harrive.written.trans hhalted).lines_eq
  rcases step_error_cases h with ⟨-, rfl⟩ | ⟨command, -, hexec⟩
  · exact .none rfl
  · have hcommand := halted_of_error hexec
    generalize halt.state = t at hcommand ⊢
    cases hcommand with
    | stage g => exact .none rfl
    | menu => exact .one rfl (Renpy.Document.statements_header ..)
    | drawn =>
      refine .draw (fun st hst => ?_) c _
      cases st with
      | say | extend => cases hst
      | _ => rfl

/-- Without emoji and voices, a line is the name of its speaker, or `extend`, and a literal. The
literal ends where it should exactly if no group of its text has a quote that ends it before. -/
theorem ofInstructions_literals (name : String) (l : List Instruction) (graph : BlockGraph)
    (profile : Profile) (hemoji : profile.resolveEmoji = false)
    (hvoices : profile.voiceMatches = []) :
    let c : Context := ⟨profile, Unicode.toUpper name, l, graph⟩
    ∃ told : List (Instruction × Statement),
      told.map (·.2) = lines (ofInstructions name l graph profile).document ∧
      told.map (·.1) <+: spoken c none l ∧ (spoken c none l).Perm (dialogue l) ∧
      ((ofInstructions name l graph profile).isComplete = true → told.map (·.1) = spoken c none l) ∧
      ∀ i st, (i, st) ∈ told →
        (∀ name, speakerName? i = some name → profile.symbolOf? (c.text name) = none) →
        ∃ raw body, lineText? i = some raw ∧ st.text = opening c i ++ quote body ∧
          (IsBody body.toList ↔ GroupsOpen (c.text raw).toList) := by
  intro c
  have hperm : (spoken c none l).Perm (dialogue l) := spoken_perm l fun j hj => (by cases hj)
  -- what has been told in a state that was reached
  have htold : ∀ {rest s}, Reached c rest s → ∃ told : List (Instruction × Statement),
      told.map (·.2) = lines s.document ∧ told.map (·.1) ++ spoken c s.held rest = spoken c none l ∧
      ∀ i st, (i, st) ∈ told →
        (∀ name, speakerName? i = some name → profile.symbolOf? (c.text name) = none) →
        ∃ raw body, lineText? i = some raw ∧ st.text = opening c i ++ quote body ∧
          (IsBody body.toList ↔ GroupsOpen (c.text raw).toList) := by
    intro rest s hs
    obtain ⟨before, told, htold⟩ := (told_start c).runs hs
    have hunvoiced := unvoiced_of_reached hvoices hs
    refine ⟨told, htold.lines.symm, htold.order, fun i st hmem hunknown => ?_⟩
    refine text_of_voices hemoji (htold.voices _ hmem) (fun speech heq => ?_) hunknown
    have hline : st ∈ lines s.document := by
      rw [htold.lines]
      exact List.mem_map_of_mem (f := (·.2)) hmem
    exact hunvoiced.shown speech (heq ▸ (List.mem_filter.mp hline).1)
  cases outcome_ofInstructions name l graph profile with
  | @complete s hs hcomplete hdocument =>
    obtain ⟨told, hlines, horder, hliterals⟩ := htold hs
    rw [spoken, List.append_nil] at horder
    refine ⟨told, ?_, ⟨[], by rw [List.append_nil, horder]⟩, hperm, fun _ => horder, hliterals⟩
    rw [hdocument, hlines]
    exact (s.document.filter_closeAll rfl).symm
  | @halted i rest s halt hs hstep hcomplete hdocument =>
    obtain ⟨told, hlines, horder, hliterals⟩ := htold hs
    refine ⟨told, ?_, ⟨_, horder⟩, hperm, fun h => ?_, hliterals⟩
    · rw [hdocument, hlines, ← lines_of_error (Runs.mem hs) hstep]
      unfold lines
      rw [Renpy.Document.statements_statement, Renpy.Document.statements_comment,
        List.filter_append, List.filter_cons_of_neg (by decide), List.filter_nil, List.append_nil]
    · rw [hcomplete] at h
      cases h

/-- A line with quotes and a reading, a continuation that ends in a backslash, and a line of a
speaker. -/
def quotedLines : List Instruction :=
  [⟨0, 0, some 0x41, .textN, [.int 0, .bytes [0x22, 0x7b, 0x61, 0x3a, 0x62, 0x7d, 0x22]]⟩,
    ⟨10, 0, some 0xb6, .textExtend, [.int 0, .bytes [0x63, 0x5c]]⟩,
    ⟨20, 0, some 0x42, .textC, [.int 0, .bytes [0x78], .bytes [0x5c, 0x22]]⟩]

/-- The three lines are written in order, each as a literal that is read back. -/
theorem literals_of_quotedLines :
    ({} : Profile).resolveEmoji = false ∧ ({} : Profile).voiceMatches = [] ∧
    (ofInstructions "a" quotedLines ⟨[]⟩ {}).isComplete = true ∧
    (ofInstructions "a" quotedLines ⟨[]⟩ {}).document.rows.map (·.statement.text)
      = ["label RIO_A:", "\"\\\"a\x7brt\x7db\x7b/rt\x7d\\\"\"", "extend \"c\\\\\"",
          "\"x\" \"\\\\\\\"\""] ∧
    ∃ told : List (Instruction × Statement),
      told.map (·.2) = lines (ofInstructions "a" quotedLines ⟨[]⟩ {}).document ∧
      told.map (·.1) = quotedLines ∧
      ∀ i st, (i, st) ∈ told →
        ∃ body, st.text = opening ⟨{}, Unicode.toUpper "a", quotedLines, ⟨[]⟩⟩ i ++ quote body ∧
          IsBody body.toList := by
  have hcomplete : (ofInstructions "a" quotedLines ⟨[]⟩ {}).isComplete = true := by decide +kernel
  have hspoken : spoken ⟨{}, Unicode.toUpper "a", quotedLines, ⟨[]⟩⟩ none quotedLines
      = quotedLines := by
    decide +kernel
  have hgroups : ∀ i ∈ quotedLines, ∀ raw ∈ lineText? i,
      GroupsOpen (({} : Profile).text raw).toList := by
    decide +kernel
  obtain ⟨told, hlines, -, -, horder, hliterals⟩ :=
    ofInstructions_literals "a" quotedLines ⟨[]⟩ {} rfl rfl
  refine ⟨rfl, rfl, hcomplete, by decide +kernel, told, hlines,
    (horder hcomplete).trans hspoken, ?_⟩
  intro i st hmem
  have hi : i ∈ quotedLines := by
    rw [← (horder hcomplete).trans hspoken]
    exact List.mem_map_of_mem (f := (·.1)) hmem
  obtain ⟨raw, body, hraw, htext, hbody⟩ := hliterals i st hmem fun _ _ => rfl
  exact ⟨body, htext, hbody.mpr (hgroups i hi raw hraw)⟩

end Rio.Screenplay

namespace Rio

open Literal (IsBody quote)

/-- A quote in the base of a reading ends the literal of its line, and a quote in the name of a
speaker ends the literal of the name. -/
theorem literal_ends_early :
    (transpile "a" [0x41, 0, 0, 0, 0x7b, 0x61, 0x22, 0x3a, 0x62, 0x7d, 0] {}).document.rows.map
        (·.statement.text)
      = ["label RIO_A:", quote "\x7brb\x7da\"\x7b/rb\x7d\x7brt\x7db\x7b/rt\x7d"] ∧
    ¬IsBody "\x7brb\x7da\"\x7b/rb\x7d\x7brt\x7db\x7b/rt\x7d".toList ∧
    (transpile "a" [0x42, 0, 0, 0, 0, 0x78, 0x22, 0, 0x79, 0] {}).document.rows.map
      (·.statement.text)
      = ["label RIO_A:", quote "x\"" ++ " " ++ quote "y"] ∧
    ¬IsBody "x\"".toList := by
  decide +kernel

end Rio
