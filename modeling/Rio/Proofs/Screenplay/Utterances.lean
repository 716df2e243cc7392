import Mathlib.Data.List.Forall2
import Rio.Proofs.Screenplay.Memory
import Rio.Proofs.Screenplay.Reading
import Rio.Proofs.Screenplay.SkipGuards

/-!
# The order of lines

A line of dialogue is said where it stands, but the last one before a menu may wait and is then
said under the menu. `spoken` is the order that comes of this, and a run says its lines in it
(`Told.step`, `Told.runs`).

A complete screenplay has each line once (`spoken_perm`). The lines come in the order of the
script unless one that waits is continued before its menu: the continuation does not wait, and is
said first. `transpile_lines` says that this is the only way, and `extended_before_said` is such a
case.
-/

namespace Rio.Screenplay

open Renpy (Document Line Speech Statement)

variable {c : Context} {s s' t : State} {i : Instruction} {rest before : List Instruction}
  {command : Command} {held : Option Instruction}

/-! ## Lines and what they are said for -/

/-- A line of dialogue or the continuation of one. -/
def isLine : Statement → Bool
  | .say _ | .extend _ => true
  | _ => false

/-- The lines of dialogue in a document, in order. -/
def lines (d : Document) : List Statement :=
  d.statements.filter isLine

/-- What is not dialogue does not count as a line. -/
theorem Written.lines_eq (h : Written (fun st => isLine st = false) s s') :
    lines s'.document = lines s.document :=
  h.filter_eq

theorem lines_emit {st : Statement} (h : isLine st = true) (s : State) :
    lines (s.emit st).document = lines s.document ++ [st] := by
  show (s.document.statement st).statements.filter isLine = _
  rw [Document.statements_statement, List.filter_append, List.filter_singleton, h]
  rfl

/-- The speech of an utterance, where the voice told of a character. -/
def Utterance.speech (c : Context) (u : Utterance) (voice : Option String) (l : Line) : Speech :=
  match u.speaker with
  | none => { speaker := none, line := l }
  | some raw => namedSpeech c.profile (c.text raw) voice l

/-- A statement says the line of an instruction. If it appears letter by letter, it has the pause
that follows. -/
inductive Voices (c : Context) (i : Instruction) : Statement → Prop where
  | say {u : Utterance} {l : Line} (voice : Option String) : Command.utterance? i = some u →
      l.text = c.dialogue u.text →
      (∀ reveal, l.reveal = some reveal →
        reveal.pause = (followingPause? c i.addr).bind (·.int? 0)) →
      Voices c i (.say (u.speech c voice l))
  | extend {text : List UInt8} : i.mnemonic = .textExtend → i.bytes? 1 = some text →
      Voices c i (.extend (c.dialogue text))

theorem line_utteranceSpeech (u : Utterance) (voice : Option String) (l : Line) :
    (u.speech c voice l).line = l := by
  unfold Utterance.speech
  split <;> rfl

/-- A line that appears letter by letter takes over a pause. -/
def takes (c : Context) (j : Instruction) : Instruction × Statement → Bool
  | (i, .say speech) => speech.line.reveal.isSome && followingPause? c i.addr == some j
  | _ => false

/-- Lines were said for instructions, in this order. Of the pauses at the addresses that `free`
tells, those that they take over are remembered. -/
structure Says (c : Context) (free : Nat → Prop) (s s' : State)
    (said : List (Instruction × Statement)) : Prop where
  lines : lines s'.document = lines s.document ++ said.map (·.2)
  voices : ∀ p ∈ said, Voices c p.1 p.2
  pauses : ∀ a, free a → (a ∈ s'.inlinedPauses ↔
    a ∈ s.inlinedPauses ∨ ∃ p ∈ said, ∃ j, takes c j p = true ∧ (j.int? 0).isSome = true ∧
      j.addr = a)

namespace Says

variable {free : Nat → Prop} {said : List (Instruction × Statement)}

/-- Where no line is said the pauses stay as they are. -/
theorem nothing (h : Written (fun st => isLine st = false) s s')
    (hpauses : ∀ a, free a → (a ∈ s'.inlinedPauses ↔ a ∈ s.inlinedPauses)) :
    Says c free s s' [] := by
  refine ⟨?_, fun p hp => (by cases hp), fun a ha => ?_⟩
  · rw [h.lines_eq, List.map_nil, List.append_nil]
  · rw [hpauses a ha]
    simp

/-- Statements of other kinds may come before and after. -/
theorem between (h : Says c free t s' said) (hbefore : Written (fun st => isLine st = false) s t)
    (hpauses : t.inlinedPauses = s.inlinedPauses) : Says c free s s' said :=
  ⟨hbefore.lines_eq ▸ h.lines, h.voices, hpauses ▸ h.pauses⟩

/-- What comes after a line without saying anything changes nothing in that. -/
theorem followed (h : Says c free s t said) (hafter : Written (fun st => isLine st = false) t s')
    (hpauses : s'.inlinedPauses = t.inlinedPauses) : Says c free s s' said :=
  ⟨hafter.lines_eq.trans h.lines, h.voices, hpauses ▸ h.pauses⟩

end Says

/-! ## The order in which lines are said -/

/-- The instructions whose lines are said at an instruction: its own, unless it waits, and under a
menu the one that has waited. -/
def utters (c : Context) (held : Option Instruction) (i : Instruction) (rest : List Instruction) :
    List Instruction :=
  if i.mnemonic = .option then held.toList
  else if i.mnemonic.isDialogue = true ∧ waitsForMenu c i rest = false then [i]
  else []

/-- The instruction whose line waits after an instruction. -/
def heldAfter (c : Context) (held : Option Instruction) (i : Instruction)
    (rest : List Instruction) :
    Option Instruction :=
  if i.mnemonic = .option then none
  else if waitsForMenu c i rest = true then some i
  else held

/-- The order in which a run says the lines of instructions, with one that waits already. -/
def spoken (c : Context) : Option Instruction → List Instruction → List Instruction
  | _, [] => []
  | held, i :: rest => utters c held i rest ++ spoken c (heldAfter c held i rest) rest

/-- A line waits if the profile asks for it and the next thing said is a menu. -/
theorem waitsForMenu_iff : waitsForMenu c i rest = true ↔
    c.profile.moveSayIntoMenu = true ∧ i.mnemonic.isSay = true ∧ menuFollows rest = true := by
  simp [waitsForMenu, and_assoc]

theorem utters_of_untold (hmenu : i.mnemonic ≠ .option)
    (hdialogue : i.mnemonic.isDialogue = false) :
    utters c held i rest = [] := by
  rw [utters, if_neg hmenu, hdialogue]
  rfl

/-- How an instruction takes part in the order of lines. -/
inductive Part (c : Context) (i : Instruction) (rest : List Instruction) : Prop where
  | menu : i.mnemonic = .option → Part c i rest
  | waits : i.mnemonic.isSay = true → c.profile.moveSayIntoMenu = true → menuFollows rest = true →
      Part c i rest
  | speaks : i.mnemonic.isSay = true → waitsForMenu c i rest = false → Part c i rest
  | continues : i.mnemonic = .textExtend → Part c i rest
  | other : i.mnemonic ≠ .option → i.mnemonic.isDialogue = false → Part c i rest

/-- Every instruction takes one of these parts. -/
theorem part (c : Context) (i : Instruction) (rest : List Instruction) : Part c i rest := by
  by_cases hsay : i.mnemonic.isSay = true
  · by_cases hwaits : waitsForMenu c i rest = true
    · obtain ⟨hmove, -, hfollows⟩ := waitsForMenu_iff.mp hwaits
      exact .waits hsay hmove hfollows
    · exact .speaks hsay (Bool.eq_false_iff.mpr hwaits)
  · by_cases hmenu : i.mnemonic = .option
    · exact .menu hmenu
    · by_cases hextend : i.mnemonic = .textExtend
      · exact .continues hextend
      · refine .other hmenu ?_
        unfold Mnemonic.isDialogue
        split
        · next heq => exact absurd heq hextend
        · exact Bool.eq_false_iff.mpr hsay

theorem isDialogue_of_isSay {m : Mnemonic} (h : m.isSay = true) : m.isDialogue = true := by
  cases m with
  | textN | textC | textNIo => rfl
  | _ => cases h

theorem isSay_of_not_isDialogue {m : Mnemonic} (h : m.isDialogue = false) : m.isSay = false :=
  Bool.eq_false_iff.mpr fun hsay => Bool.false_ne_true (h ▸ isDialogue_of_isSay hsay)

theorem ne_option_of_isSay {m : Mnemonic} (h : m.isSay = true) : m ≠ .option := by
  rintro rfl
  cases h

theorem waitsForMenu_of_not_isSay (h : i.mnemonic.isSay = false) :
    waitsForMenu c i rest = false := by
  rw [waitsForMenu, h, Bool.and_false, Bool.false_and]

/-- A menu first says the line that waits for it. -/
theorem spoken_menu (h : i.mnemonic = .option) :
    spoken c held (i :: rest) = held.toList ++ spoken c none rest := by
  rw [spoken, utters, heldAfter, if_pos h, if_pos h]

/-- A line that waits takes the place of one that waited before. -/
theorem spoken_waits (hwaits : waitsForMenu c i rest = true) :
    spoken c held (i :: rest) = spoken c (some i) rest := by
  have hne := ne_option_of_isSay (waitsForMenu_iff.mp hwaits).2.1
  rw [spoken, utters, heldAfter, if_neg hne, if_neg hne, if_pos hwaits,
    if_neg fun hspeaks => Bool.false_ne_true (hspeaks.2.symm.trans hwaits)]
  rfl

/-- A line that does not wait is said where it stands. -/
theorem spoken_speaks (hsay : i.mnemonic.isSay = true) (hwaits : waitsForMenu c i rest = false) :
    spoken c held (i :: rest) = i :: spoken c held rest := by
  have hne := ne_option_of_isSay hsay
  rw [spoken, utters, heldAfter, if_neg hne, if_neg hne,
    if_pos ⟨isDialogue_of_isSay hsay, hwaits⟩, hwaits]
  rfl

/-- A continuation is said where it stands, even before the line that it continues. -/
theorem spoken_continues (h : i.mnemonic = .textExtend) :
    spoken c held (i :: rest) = i :: spoken c held rest := by
  have hwaits : waitsForMenu c i rest = false := waitsForMenu_of_not_isSay (by rw [h]; rfl)
  rw [spoken, utters, heldAfter, hwaits, h]
  rfl

theorem spoken_other (hne : i.mnemonic ≠ .option) (h : i.mnemonic.isDialogue = false) :
    spoken c held (i :: rest) = spoken c held rest := by
  rw [spoken, utters, heldAfter, if_neg hne, if_neg hne, h,
    waitsForMenu_of_not_isSay (isSay_of_not_isDialogue h)]
  rfl

/-- The menu that a line waits for stays ahead. -/
theorem menuFollows_of_cons (h : menuFollows (i :: rest) = true) (hne : i.mnemonic ≠ .option) :
    i.mnemonic.isSay = false ∧ menuFollows rest = true := by
  unfold menuFollows at h
  split at h
  · cases h
  · next hsay =>
    rw [if_neg (by simpa using hne)] at h
    exact ⟨Bool.eq_false_iff.mpr hsay, h⟩

/-- What is neither a line nor a menu does not count. -/
theorem menuFollows_append {between : List Instruction}
    (h : ∀ k ∈ between, k.mnemonic.isSay = false ∧ k.mnemonic ≠ .option) :
    menuFollows (between ++ rest) = menuFollows rest := by
  induction between with
  | nil => rfl
  | cons k between ih =>
    obtain ⟨hsay, hmenu⟩ := h k (List.mem_cons_self ..)
    rw [List.cons_append, menuFollows, hsay, if_neg Bool.false_ne_true,
      if_neg (by simpa using hmenu)]
    exact ih fun k' hk' => h k' (List.mem_cons_of_mem _ hk')

/-- No line waits where the next one comes. -/
theorem eq_none_of_isSay (hheld : ∀ j, held = some j → menuFollows (i :: rest) = true)
    (hsay : i.mnemonic.isSay = true) : held = none := by
  cases held with
  | none => rfl
  | some j =>
    have hnot := (menuFollows_of_cons (hheld j rfl) (ne_option_of_isSay hsay)).1
    rw [hsay] at hnot
    cases hnot

/-- The lines of instructions. -/
def dialogue (l : List Instruction) : List Instruction :=
  l.filter (·.mnemonic.isDialogue)

theorem dialogue_cons (i : Instruction) (rest : List Instruction) :
    dialogue (i :: rest) = (if i.mnemonic.isDialogue = true then [i] else []) ++ dialogue rest := by
  unfold dialogue
  rw [List.filter_cons]
  split <;> rfl

theorem dialogue_append (l l' : List Instruction) :
    dialogue (l ++ l') = dialogue l ++ dialogue l' :=
  List.filter_append ..

/-- Every line is said once. -/
theorem spoken_perm (l : List Instruction) (hheld : ∀ j, held = some j → menuFollows l = true) :
    (spoken c held l).Perm (held.toList ++ dialogue l) := by
  induction l generalizing held with
  | nil =>
    cases held with
    | none => exact .nil
    | some j => cases hheld j rfl
  | cons i rest ih =>
    rw [dialogue_cons]
    cases part c i rest with
    | menu h =>
      rw [spoken_menu h, h]
      exact .append_left _ (ih fun j hj => (by cases hj))
    -- the line is held now, in the place of none: no line is held at one that says
    | waits hsay hmove hfollows =>
      rw [spoken_waits (waitsForMenu_iff.mpr ⟨hmove, hsay, hfollows⟩), eq_none_of_isSay hheld hsay,
        if_pos (isDialogue_of_isSay hsay)]
      exact ih fun j _ => hfollows
    | speaks hsay hwaits =>
      rw [spoken_speaks hsay hwaits, eq_none_of_isSay hheld hsay, if_pos (isDialogue_of_isSay hsay)]
      exact .cons i (ih fun j hj => (by cases hj))
    -- an extension is said at once, ahead of the line that is held
    | continues h =>
      rw [spoken_continues h, h]
      have hrest : (spoken c held rest).Perm (held.toList ++ dialogue rest) :=
        ih fun j hj => (menuFollows_of_cons (hheld j hj) (by rw [h]; nofun)).2
      exact (hrest.cons i).trans List.perm_middle.symm
    | other hne h =>
      rw [spoken_other hne h, h]
      exact ih fun j hj => (menuFollows_of_cons (hheld j hj) hne).2

/-- Whether a line is continued before the next line or menu. -/
def isContinued : List Instruction → Bool
  | [] => false
  | i :: rest =>
    if i.mnemonic.isSay || i.mnemonic == .option then false
    else i.mnemonic == .textExtend || isContinued rest

/-- A line that waits for a menu is continued before the menu. -/
def Overtaken (c : Context) (l : List Instruction) : Prop :=
  ∃ before i rest, l = before ++ i :: rest ∧ waitsForMenu c i rest = true ∧ isContinued rest = true

/-- The first line is overtaken, or a later one is. -/
theorem overtaken_cons :
    Overtaken c (i :: rest) ↔
      (waitsForMenu c i rest = true ∧ isContinued rest = true) ∨ Overtaken c rest := by
  constructor
  · rintro ⟨before, j, later, heq, hwaits, hcontinued⟩
    cases before with
    | nil =>
      cases heq
      exact .inl ⟨hwaits, hcontinued⟩
    | cons k before =>
      cases heq
      exact .inr ⟨before, j, later, rfl, hwaits, hcontinued⟩
  · rintro (⟨hwaits, hcontinued⟩ | ⟨before, j, later, rfl, hwaits, hcontinued⟩)
    · exact ⟨[], i, rest, rfl, hwaits, hcontinued⟩
    · exact ⟨i :: before, j, later, rfl, hwaits, hcontinued⟩

instance decidableOvertaken (c : Context) : ∀ l, Decidable (Overtaken c l)
  | [] => .isFalse (by
      rintro ⟨before, i, rest, heq, -⟩
      cases before <;> cases heq)
  | _ :: rest =>
    have := decidableOvertaken c rest
    decidable_of_iff _ overtaken_cons.symm

/-- As `Overtaken`, with a line that waits already. -/
def Late (c : Context) (held : Option Instruction) (l : List Instruction) : Prop :=
  (held.isSome = true ∧ isContinued l = true) ∨ Overtaken c l

/-- A menu says what waited, so nothing is late behind it. -/
theorem late_menu (h : i.mnemonic = .option) : Late c held (i :: rest) ↔ Late c none rest := by
  have hwaits : waitsForMenu c i rest = false := waitsForMenu_of_not_isSay (by rw [h]; rfl)
  simp [Late, overtaken_cons, isContinued, hwaits, h]

/-- With no line waiting, only one that starts to wait can be late. -/
theorem late_none_cons :
    Late c none (i :: rest)
      ↔ Late c (if waitsForMenu c i rest = true then some i else none) rest := by
  unfold Late
  rw [overtaken_cons]
  split
  · next hwaits => simp [hwaits]
  · next hwaits => simp [hwaits]

theorem late_other (hsay : i.mnemonic.isSay = false) (hne : i.mnemonic ≠ .option)
    (h : i.mnemonic ≠ .textExtend) : Late c held (i :: rest) ↔ Late c held rest := by
  have hwaits : waitsForMenu c i rest = false := waitsForMenu_of_not_isSay hsay
  simp [Late, overtaken_cons, isContinued, hwaits, hsay, hne, h]

/-- Lines come in their order unless one is continued while it waits, and then the order is seen
to differ by which lines are continuations. -/
theorem spoken_order (l : List Instruction)
    (hheld : ∀ j, held = some j → j.mnemonic.isSay = true ∧ menuFollows l = true) :
    (¬Late c held l ∧ spoken c held l = held.toList ++ dialogue l) ∨
      (Late c held l ∧ (spoken c held l).map (·.mnemonic.isSay)
        ≠ (held.toList ++ dialogue l).map (·.mnemonic.isSay)) := by
  induction l generalizing held with
  | nil =>
    cases held with
    | none =>
      refine .inl ⟨?_, rfl⟩
      rintro (⟨hsome, -⟩ | ⟨before, i, rest, heq, -⟩)
      · cases hsome
      · cases before <;> cases heq
    | some j => cases (hheld j rfl).2
  | cons i rest ih =>
    have hfollows : ∀ j, held = some j → menuFollows (i :: rest) = true :=
      fun j hj => (hheld j hj).2
    rw [dialogue_cons]
    have hrest : (¬Late c none rest ∧ spoken c none rest = dialogue rest) ∨
        (Late c none rest ∧ (spoken c none rest).map (·.mnemonic.isSay)
          ≠ (dialogue rest).map (·.mnemonic.isSay)) := ih fun j hj => (by cases hj)
    -- a line that is said at once while none waits
    have hsaid : (¬Late c none rest ∧ i :: spoken c none rest = i :: dialogue rest) ∨
        (Late c none rest ∧ (i :: spoken c none rest).map (·.mnemonic.isSay)
          ≠ (i :: dialogue rest).map (·.mnemonic.isSay)) := by
      refine hrest.imp ?_ ?_
      · rintro ⟨hnot, heq⟩
        exact ⟨hnot, congrArg _ heq⟩
      · rintro ⟨hlate, hne⟩
        exact ⟨hlate, fun heq => hne (List.cons.inj heq).2⟩
    cases part c i rest with
    | menu h =>
      rw [late_menu h, spoken_menu h, h]
      refine hrest.imp ?_ ?_
      · rintro ⟨hnot, heq⟩
        exact ⟨hnot, congrArg _ heq⟩
      · rintro ⟨hlate, hne⟩
        refine ⟨hlate, fun heq => hne ?_⟩
        rw [List.map_append, List.map_append] at heq
        exact List.append_cancel_left heq
    | waits hsay hmove hmenu =>
      have hwaits := waitsForMenu_iff.mpr ⟨hmove, hsay, hmenu⟩
      rw [eq_none_of_isSay hfollows hsay, late_none_cons, if_pos hwaits, spoken_waits hwaits,
        if_pos (isDialogue_of_isSay hsay)]
      exact ih fun j hj => ⟨Option.some.inj hj ▸ hsay, hmenu⟩
    | speaks hsay hwaits =>
      rw [eq_none_of_isSay hfollows hsay, late_none_cons, hwaits, spoken_speaks hsay hwaits,
        if_pos (isDialogue_of_isSay hsay)]
      exact hsaid
    | continues h =>
      have hsay : i.mnemonic.isSay = false := by rw [h]; rfl
      rw [spoken_continues h, if_pos (by rw [h]; rfl)]
      cases held with
      | none =>
        rw [late_none_cons, waitsForMenu_of_not_isSay hsay]
        exact hsaid
      | some j =>
        -- the continuation stands where the line that waits should
        have hcontinued : isContinued (i :: rest) = true := by
          rw [isContinued, h]
          rfl
        refine .inr ⟨.inl ⟨rfl, hcontinued⟩, fun heq => ?_⟩
        have hfirst : i.mnemonic.isSay = j.mnemonic.isSay := (List.cons.inj heq).1
        rw [hsay, (hheld j rfl).1] at hfirst
        cases hfirst
    | other hne h =>
      have hextend : i.mnemonic ≠ .textExtend := fun hextend => by
        rw [hextend] at h
        cases h
      rw [late_other (isSay_of_not_isDialogue h) hne hextend, spoken_other hne h, h]
      exact ih fun j hj => ⟨(hheld j hj).1, (menuFollows_of_cons (hfollows j hj) hne).2⟩

/-! ## What is said at a command -/

section Commands

variable {free : Nat → Prop}

/-- Size and pause leave the text of a line as it is. -/
theorem line_text (s : State) (addr : Nat) (raw : List UInt8) :
    (line c s addr raw).1.text = c.dialogue raw := by
  unfold line
  dsimp only
  split <;> rfl

/-- A line that is revealed at some speed waits as long as the pause behind it says. -/
theorem pause_of_line {addr : Nat} {raw : List UInt8} {reveal : Renpy.Reveal}
    (h : (line c s addr raw).1.reveal = some reveal) :
    reveal.pause = (followingPause? c addr).bind (·.int? 0) := by
  unfold line at h
  dsimp only at h
  split at h
  · cases h
  · obtain rfl := Option.some.inj h
    dsimp only
    unfold takePause
    cases hpause : followingPause? c addr with
    | none => rfl
    | some j =>
      dsimp only [Option.bind_some]
      cases j.int? 0 <;> rfl

/-- A line takes over the pause that follows it, if that has a length. -/
theorem mem_inlinedPauses_takePause (s : State) (addr a : Nat) :
    a ∈ (takePause c s addr).2.inlinedPauses ↔ a ∈ s.inlinedPauses ∨
      ∃ j, followingPause? c addr = some j ∧ (j.int? 0).isSome = true ∧ j.addr = a := by
  unfold takePause
  split
  · next hpause => simp [hpause]
  · next j hpause =>
    split
    · next hms => simp [hpause, hms]
    · next ms hms =>
      have hright : (∃ k, followingPause? c addr = some k ∧ (k.int? 0).isSome = true ∧ k.addr = a)
          ↔ a = j.addr := by
        constructor
        · rintro ⟨k, hk, -, rfl⟩
          rw [Option.some.inj (hpause.symm.trans hk)]
        · rintro rfl
          exact ⟨j, hpause, by rw [hms]; rfl, rfl⟩
      rw [hright]
      dsimp only
      split
      · next hmem =>
        refine (or_iff_left_of_imp ?_).symm
        rintro rfl
        exact List.contains_iff_mem.mp hmem
      · rw [List.mem_cons, or_comm]

/-- A line that appears letter by letter makes the run remember the pause that it takes over. -/
theorem mem_inlinedPauses_line (s : State) (addr : Nat) (raw : List UInt8) (a : Nat) :
    a ∈ (line c s addr raw).2.inlinedPauses ↔ a ∈ s.inlinedPauses ∨
      ((line c s addr raw).1.reveal.isSome = true ∧
        ∃ j, followingPause? c addr = some j ∧ (j.int? 0).isSome = true ∧ j.addr = a) := by
  have hsize : (lineSize s).2.inlinedPauses = s.inlinedPauses := by
    unfold lineSize
    split
    · rfl
    · split
      · rfl
      · split <;> rfl
  unfold line
  dsimp only
  split
  · simp [hsize]
  · rw [mem_inlinedPauses_takePause, hsize]
    simp

theorem utter_eq (s : State) (addr : Nat) (u : Utterance) :
    utter c s addr u = { (line c s addr u.text).2.emit
      (.say (u.speech c (line c s addr u.text).2.nextSpeaker (line c s addr u.text).1)) with
        nextSpeaker := none } := rfl

theorem isSay_of_utterance? {u : Utterance} (h : Command.utterance? i = some u) :
    i.mnemonic.isSay = true := by
  unfold Command.utterance? at h
  split at h
  · next hm => rw [hm]; rfl
  · next hm => rw [hm]; rfl
  · next hm => rw [hm]; rfl
  · cases h

/-- What is spoken is one line, for the instruction that says it. -/
theorem says_speak (h : speak c s i = .ok s') : ∃ st, Says c free s s' [(i, st)] := by
  unfold speak at h
  split at h
  · split at h
    · next u hu =>
      obtain rfl := Except.ok.inj h
      refine ⟨.say (u.speech c (line c s i.addr u.text).2.nextSpeaker (line c s i.addr u.text).1),
        ?_, ?_, ?_⟩
      · have hline : Written (fun st => isLine st = false) s (line c s i.addr u.text).2 :=
          Acts.written (line_acts ..)
        rw [utter_eq, ← hline.lines_eq]
        exact lines_emit rfl _
      · intro p hp
        rw [List.mem_singleton.mp hp]
        exact .say _ hu (line_text ..) fun reveal hreveal => pause_of_line hreveal
      · intro a _
        show a ∈ (line c s i.addr u.text).2.inlinedPauses ↔ _
        rw [mem_inlinedPauses_line]
        simp [takes, line_utteranceSpeech, and_assoc]
    · cases h
  · cases h

/-- A menu has the line that has waited for it, if there is one, and then its choices. -/
theorem menu_cases {choices : List MenuOption}
    (hmove : c.profile.moveSayIntoMenu = false → s.held = none) (h : menu c s choices = .ok s') :
    (s.held = none ∧ s' = (choices.foldl (choice c) (s.header .menu)).closeScope) ∨
      ∃ j t, s.held = some j ∧ speak c { s.header .menu with held := none } j = .ok t ∧
        s' = (choices.foldl (choice c) t).closeScope := by
  unfold menu at h
  dsimp only at h
  split at h
  · next j _ hheld =>
    cases hspeak : speak c { s.header .menu with held := none } j with
    | error halt =>
      rw [hspeak] at h
      cases h
    | ok t =>
      rw [hspeak] at h
      exact Or.inr ⟨j, t, hheld, hspeak, (Except.ok.inj h).symm⟩
  · next hnone =>
    refine Or.inl ⟨?_, (Except.ok.inj h).symm⟩
    cases hmove' : c.profile.moveSayIntoMenu with
    | false => exact hmove hmove'
    | true =>
      cases hheld : s.held with
      | none => rfl
      | some j => exact absurd hheld (hnone j hmove')

/-- Under a menu the line is said that has waited for it. -/
theorem says_menu {choices : List MenuOption}
    (hmove : c.profile.moveSayIntoMenu = false → s.held = none) (h : menu c s choices = .ok s') :
    ∃ said, said.map (·.1) = s.held.toList ∧ Says c free s s' said := by
  have hopen : Written (fun st => isLine st = false) s (s.header .menu) :=
    .one rfl (s.document.statements_header .menu)
  have hchoices : ∀ t : State, Written (fun st => isLine st = false) t
      (choices.foldl (choice c) t).closeScope := fun t =>
    (choices_acts (c := c) (P := fun st => isLine st = false) (fun _ _ => rfl)
      (fun _ => rfl) rfl choices t).written
  have hpauses : ∀ t : State, (choices.foldl (choice c) t).closeScope.inlinedPauses
      = t.inlinedPauses :=
    fun t => congrArg Memory.inlinedPauses (memory_foldl memory_choice choices t)
  rcases menu_cases hmove h with ⟨hheld, rfl⟩ | ⟨j, t, hheld, hspeak, rfl⟩
  · rw [hheld]
    refine ⟨[], rfl, .nothing (hopen.trans (hchoices _)) fun a _ => ?_⟩
    rw [hpauses]
    rfl
  · have hspeech : ∃ st, Says c free { s.header .menu with held := none } t [(j, st)] :=
      says_speak hspeak
    obtain ⟨st, hspoke⟩ := hspeech
    rw [hheld]
    exact ⟨[(j, st)], rfl, (hspoke.between hopen rfl).followed (hchoices t) (hpauses t)⟩

end Commands

/-- Commands that say something, or nothing at a pause. -/
def Command.isTold : Command → Bool
  | .say | .extend _ | .menu _ | .sleep _ => true
  | _ => false

/-- Other commands come from other instructions. -/
theorem untold_of_isFrom {m : Mnemonic} (h : command.isFrom m = true)
    (htold : command.isTold = false) :
    m ≠ .option ∧ m.isDialogue = false := by
  cases m with
  | option | textN | textC | textNIo | textExtend | sleep =>
    cases command with
    | say | extend | menu | sleep => cases htold
    | _ => cases h
  | _ => exact ⟨nofun, rfl⟩

theorem mnemonic_of_menu {m : Mnemonic} {choices : List MenuOption}
    (h : (Command.menu choices).isFrom m = true) : m = .option := by
  cases m with
  | option => rfl
  | _ => cases h

theorem mnemonic_of_extend {m : Mnemonic} {text : List UInt8}
    (h : (Command.extend text).isFrom m = true) : m = .textExtend := by
  cases m with
  | textExtend => rfl
  | _ => cases h

theorem mnemonic_of_sleep {m : Mnemonic} {ms : Option Int}
    (h : (Command.sleep ms).isFrom m = true) :
    m = .sleep := by
  cases m with
  | sleep => rfl
  | _ => cases h

/-- Only the commands of dialogue write lines. -/
theorem isLine_of_writes {st : Statement} (htold : command.isTold = false)
    (h : command.writes st = true) :
    isLine st = false := by
  cases st with
  | say | extend =>
    cases command with
    | say | extend | menu | sleep => cases htold
    | _ => cases h
  | _ => rfl

/-- What is said at the command of an instruction. A pause that was taken over is forgotten at its
own place. -/
theorem says_execute (hread : Reading.ofInstruction i = .command command)
    (hmove : c.profile.moveSayIntoMenu = false → s.held = none)
    (h : execute c i rest s command = .ok s') :
    ∃ said, said.map (·.1) = utters c s.held i rest ∧
      Says c (fun a => i.mnemonic = .sleep → a ≠ i.addr) s s' said := by
  have hfrom := isFrom_of_command hread
  cases htold : command.isTold with
  | false =>
    obtain ⟨hmenu, hdialogue⟩ := untold_of_isFrom hfrom htold
    have hacts : Acts c (fun st => isLine st = false) s s' :=
      execute_acts (fun st hst => isLine_of_writes htold hst) (fun _ _ _ => rfl) h
    -- of the dialogue only the speed of the text is left, and that takes over no pause
    have hpauses : s'.inlinedPauses = s.inlinedPauses := by
      cases hsaid : command.isDialogue with
      | false => exact congrArg Memory.inlinedPauses (dialogue_execute hsaid h)
      | true =>
        cases command with
        | revealDuration value =>
          obtain rfl := Except.ok.inj h
          rfl
        | say | menu | sleep => cases htold
        | _ => cases hsaid
    exact ⟨[], (utters_of_untold hmenu hdialogue).symm,
      .nothing hacts.written fun a _ => by rw [hpauses]⟩
  | true =>
    cases command with
    | say =>
      have hsay : i.mnemonic.isSay = true := hfrom
      rw [utters, if_neg (ne_option_of_isSay hsay)]
      change say c s i rest = .ok s' at h
      unfold say at h
      split at h
      -- the line waits: it was taken note of on the way, and only a comment is written here
      · next hwaits =>
        obtain rfl := Except.ok.inj h
        refine ⟨[], ?_, .nothing (.none (s.document.statements_comment _)) fun a _ => Iff.rfl⟩
        rw [if_neg fun hspeaks => Bool.false_ne_true (hspeaks.2.symm.trans hwaits)]
        rfl
      · next hwaits =>
        obtain ⟨st, hspoke⟩ := says_speak h
        refine ⟨[(i, st)], ?_, hspoke⟩
        rw [if_pos ⟨isDialogue_of_isSay hsay, Bool.eq_false_iff.mpr hwaits⟩]
        rfl
    | extend text =>
      have hextend : i.mnemonic = .textExtend := mnemonic_of_extend hfrom
      have htext : i.bytes? 1 = some text := by
        simp only [Reading.ofInstruction, hextend, ofOption_eq_command_iff] at hread
        obtain ⟨raw, hraw, heq⟩ := Option.map_eq_some_iff.mp hread
        cases heq
        exact hraw
      obtain rfl := Except.ok.inj h
      refine ⟨[(i, .extend (c.dialogue text))], ?_, lines_emit rfl s, ?_, fun a _ => ?_⟩
      · rw [utters, waitsForMenu_of_not_isSay (by rw [hextend]; rfl), hextend]
        rfl
      · intro p hp
        rw [List.mem_singleton.mp hp]
        exact .extend hextend htext
      · simp [takes, State.emit]
    | menu choices =>
      have hmenu : i.mnemonic = .option := mnemonic_of_menu hfrom
      rw [utters, if_pos hmenu]
      exact says_menu hmove h
    | sleep ms =>
      have hsleep : i.mnemonic = .sleep := mnemonic_of_sleep hfrom
      have hwritten : Written (fun st => isLine st = false) s s' := by
        have hacts : Acts c (fun st => isLine st = false) s s' := sleep_acts (fun _ => rfl) h
        exact hacts.written
      refine ⟨[], ?_, .nothing hwritten fun a ha => ?_⟩
      · rw [utters, hsleep]
        rfl
      -- the pause itself is crossed off, any other one stays
      · replace ha := ha hsleep
        change sleep s i ms = .ok s' at h
        unfold sleep at h
        split at h
        · obtain rfl := Except.ok.inj h
          show a ∈ s.inlinedPauses.filter (· != i.addr) ↔ _
          rw [List.mem_filter, bne_iff_ne]
          exact and_iff_left ha
        · split at h
          · obtain rfl := Except.ok.inj h
            exact Iff.rfl
          · cases h
    | _ => cases htold

/-- A menu ends the waiting. -/
theorem held_execute (hread : Reading.ofInstruction i = .command command)
    (hmove : c.profile.moveSayIntoMenu = false → s.held = none)
    (h : execute c i rest s command = .ok s') :
    s'.held = if i.mnemonic = .option then none else s.held := by
  have hfrom := isFrom_of_command hread
  by_cases hoption : i.mnemonic = .option
  · rw [if_pos hoption]
    rw [hoption] at hfrom
    cases command with
    | menu choices =>
      have hheld : s'.held = if c.profile.moveSayIntoMenu then none else s.held :=
        congrArg Memory.held (memory_menu h)
      rw [hheld]
      split
      · rfl
      · next hmove' => exact hmove (Bool.eq_false_iff.mpr hmove')
    | _ => cases hfrom
  · rw [if_neg hoption]
    cases hdialogue : command.isDialogue with
    | false => exact congrArg Memory.held (dialogue_execute hdialogue h)
    | true =>
      cases command with
      | revealDuration value =>
        obtain rfl := Except.ok.inj h
        rfl
      | say => exact congrArg Memory.held (memory_say h)
      | menu choices => exact absurd (mnemonic_of_menu hfrom) hoption
      | sleep ms => exact congrArg Memory.held (memory_sleep h)
      | _ => cases hdialogue

/-! ## What is said at a step -/

theorem allowedBefore_isLine (c : Context) : AllowedBefore c fun st => isLine st = false where
  pass := rfl
  skip := fun _ st hst => by
    cases st with
    | say | extend => cases hst
    | _ => rfl
  label := fun _ => rfl

/-- Instructions that are not dealt with are no dialogue. -/
theorem untold_of_unhandled (h : Reading.ofInstruction i = .unhandled) :
    i.mnemonic ≠ .option ∧ i.mnemonic.isDialogue = false := by
  constructor
  · intro hm
    simp only [Reading.ofInstruction, hm] at h
    cases hoptions : i.options? <;> simp [hoptions, Reading.ofOption] at h
  · rw [Bool.eq_false_iff]
    intro hdialogue
    cases hm : i.mnemonic with
    | textN | textC | textNIo => simp [Reading.ofInstruction, hm] at h
    | textExtend =>
      simp only [Reading.ofInstruction, hm] at h
      cases hbytes : i.bytes? 1 <;> simp [hbytes, Reading.ofOption] at h
    | _ =>
      rw [hm] at hdialogue
      cases hdialogue

/-- A line that begins to wait changes nothing in what is said now. -/
theorem utters_arrive :
    utters c (if waitsForMenu c i rest = true then some i else held) i rest
      = utters c held i rest := by
  unfold utters
  split
  · next hmenu =>
    rw [waitsForMenu_of_not_isSay (by rw [hmenu]; rfl)]
    rfl
  · rfl

/-- A step says lines, and makes one wait. -/
theorem says_step (hi : i ∈ c.instructions)
    (hmove : c.profile.moveSayIntoMenu = false → s.held = none) (h : step c s i rest = .ok s') :
    s'.held = heldAfter c s.held i rest ∧ ∃ said, said.map (·.1) = utters c s.held i rest ∧
      Says c (fun a => i.mnemonic = .sleep → a ≠ i.addr) s s' said := by
  cases stepped_of_ok h with
  | ending hend =>
    have hmemory : ((s.closeBranches i.addr).placeLabel c i.addr).memory = s.memory := by
      rw [memory_placeLabel, memory_closeBranches]
    have hwritten : Written (fun st => isLine st = false) s
        ((s.closeBranches i.addr).placeLabel c i.addr) :=
      .closeBranches_placeLabel (P := fun st => isLine st = false) rfl rfl s
    have hmenu : i.mnemonic ≠ .option := by rw [hend]; nofun
    have hpauses : ((s.closeBranches i.addr).placeLabel c i.addr).inlinedPauses = s.inlinedPauses :=
      congrArg Memory.inlinedPauses hmemory
    refine ⟨?_, [], (utters_of_untold hmenu (by rw [hend]; rfl)).symm,
      .nothing hwritten fun a _ => by rw [hpauses]⟩
    rw [heldAfter, if_neg hmenu, waitsForMenu_of_not_isSay (by rw [hend]; rfl)]
    exact congrArg Memory.held hmemory
  | unhandled hend hread =>
    obtain ⟨hmenu, hdialogue⟩ := untold_of_unhandled hread
    have hmemory := memory_arrive (c := c) s i rest
    have harrive : Acts c (fun st => isLine st = false) s (s.arrive c i rest) :=
      arrive_acts (allowedBefore_isLine c) hi rest
    have hpauses : (s.arrive c i rest).inlinedPauses = s.inlinedPauses :=
      congrArg Memory.inlinedPauses hmemory
    refine ⟨?_, [], (utters_of_untold hmenu hdialogue).symm,
      .nothing (harrive.remark _).written fun a _ => iff_of_eq (congrArg (a ∈ ·) hpauses)⟩
    rw [heldAfter, if_neg hmenu]
    exact congrArg Memory.held hmemory
  | @command command _ hend hread hexec =>
    have hmemory := memory_announce_arrive (c := c) s i rest
    have hheld : (announce c (s.arrive c i rest) i).held
        = if waitsForMenu c i rest = true then some i else s.held := congrArg Memory.held hmemory
    have harrive : Acts c (fun st => isLine st = false) s (announce c (s.arrive c i rest) i) :=
      (arrive_acts (allowedBefore_isLine c) hi rest).trans (announce_acts i)
    -- what waits here may be the instruction itself, which then is no line of an earlier one
    have hmove' : c.profile.moveSayIntoMenu = false →
        (announce c (s.arrive c i rest) i).held = none := by
      intro hmoved
      rw [hheld, if_neg, hmove hmoved]
      intro hwaits
      rw [(waitsForMenu_iff.mp hwaits).1] at hmoved
      cases hmoved
    obtain ⟨said, hsaid, hspoke⟩ := says_execute hread hmove' hexec
    refine ⟨?_, said, ?_, hspoke.between harrive.written (congrArg Memory.inlinedPauses hmemory)⟩
    · rw [held_execute hread hmove' hexec, hheld]
      rfl
    · rw [hsaid, hheld, utters_arrive]

/-! ## The whole run -/

/-- The line that waits where a run has come through `before` and has `rest` ahead. -/
def Waiting (c : Context) (before rest : List Instruction) (i : Instruction) : Prop :=
  ∃ earlier between, before = earlier ++ i :: between ∧ waitsForMenu c i (between ++ rest) = true ∧
    ∀ k ∈ between, k.mnemonic ≠ .option

/-- After a step the line waits that has just begun to, or the one that did before unless this was
its menu. -/
theorem waiting_snoc {j : Instruction} :
    Waiting c (before ++ [i]) rest j ↔
      (j = i ∧ waitsForMenu c i rest = true) ∨
        (Waiting c before (i :: rest) j ∧ i.mnemonic ≠ .option) := by
  constructor
  · rintro ⟨earlier, between, heq, hwaits, hnone⟩
    -- with nothing in between `j` is the last instruction itself
    rcases List.eq_nil_or_concat between with rfl | ⟨between, k, rfl⟩
    · obtain ⟨rfl, hlast⟩ := List.append_inj' heq rfl
      cases hlast
      exact .inl ⟨rfl, hwaits⟩
    · rw [List.concat_eq_append] at heq hwaits hnone
      rw [← List.cons_append, ← List.append_assoc] at heq
      obtain ⟨rfl, hlast⟩ := List.append_inj' heq rfl
      cases hlast
      rw [List.append_assoc] at hwaits
      refine .inr ⟨⟨earlier, between, rfl, hwaits, fun k hk => ?_⟩, ?_⟩
      · exact hnone k (List.mem_append_left _ hk)
      · exact hnone i (List.mem_append_right _ (List.mem_singleton.mpr rfl))
  · rintro (⟨rfl, hwaits⟩ | ⟨⟨earlier, between, rfl, hwaits, hnone⟩, hmenu⟩)
    · exact ⟨before, [], rfl, hwaits, fun k hk => (by cases hk)⟩
    · refine ⟨earlier, between ++ [i], ?_, ?_, fun k hk => ?_⟩
      · rw [List.append_assoc, List.cons_append]
      · rw [List.append_assoc]
        exact hwaits
      · rcases List.mem_append.mp hk with hk | hk
        · exact hnone k hk
        · rw [List.mem_singleton.mp hk]
          exact hmenu

/-- The menu for a line that waits is ahead, and no other line before it. -/
theorem Waiting.menuFollows (h : Waiting c before rest i) :
    c.profile.moveSayIntoMenu = true ∧ i.mnemonic.isSay = true ∧ menuFollows rest = true := by
  obtain ⟨earlier, between, -, hwaits, hnone⟩ := h
  obtain ⟨hmove, hsay, hfollows⟩ := waitsForMenu_iff.mp hwaits
  refine ⟨hmove, hsay, ?_⟩
  clear hwaits
  induction between with
  | nil => exact hfollows
  | cons k between ih =>
    exact ih (fun k' hk' => hnone k' (List.mem_cons_of_mem _ hk'))
      (menuFollows_of_cons hfollows (hnone k (List.mem_cons_self ..))).2

/-- A run has come through `before` and has told its lines. -/
structure Told (c : Context) (before rest : List Instruction)
    (tale : List (Instruction × Statement)) (s : State) : Prop where
  instructions : c.instructions = before ++ rest
  lines : lines s.document = tale.map (·.2)
  voices : ∀ p ∈ tale, Voices c p.1 p.2
  order : tale.map (·.1) ++ spoken c s.held rest = spoken c none c.instructions
  held : ∀ i, s.held = some i ↔ Waiting c before rest i

/-- At the start nothing has been told. -/
theorem told_start (c : Context) : Told c [] c.instructions [] (start c) where
  instructions := rfl
  lines := rfl
  voices := fun p hp => (by cases hp)
  order := rfl
  held := fun i => by
    constructor
    · intro h
      cases h
    · rintro ⟨earlier, between, heq, -⟩
      cases earlier <;> cases heq

theorem Told.next_mem {tale : List (Instruction × Statement)}
    (h : Told c before (i :: rest) tale s) :
    i ∈ c.instructions := by
  rw [h.instructions]
  exact List.mem_append_right _ List.mem_cons_self

/-- No line waits unless lines are moved into menus. -/
theorem Told.held_eq_none {tale : List (Instruction × Statement)} (h : Told c before rest tale s)
    (hmoved : c.profile.moveSayIntoMenu = false) : s.held = none := by
  cases hheld : s.held with
  | none => rfl
  | some j =>
    rw [((h.held j).mp hheld).menuFollows.1] at hmoved
    cases hmoved

/-- A step adds its lines. -/
theorem Told.step {tale : List (Instruction × Statement)} (h : Told c before (i :: rest) tale s)
    (hstep : step c s i rest = .ok s') :
    ∃ said, Told c (before ++ [i]) rest (tale ++ said) s' ∧
      Says c (fun a => i.mnemonic = .sleep → a ≠ i.addr) s s' said := by
  have hi := h.next_mem
  obtain ⟨hheld, said, hsaid, hspoke⟩ := says_step hi h.held_eq_none hstep
  refine ⟨said, ⟨?_, ?_, ?_, ?_, fun j => ?_⟩, hspoke⟩
  · rw [h.instructions, List.append_assoc]
    rfl
  · rw [hspoke.lines, h.lines, List.map_append]
  · intro p hp
    exact (List.mem_append.mp hp).elim (h.voices p) (hspoke.voices p)
  · rw [← h.order, List.map_append, hsaid, hheld, List.append_assoc]
    rfl
  · rw [hheld, waiting_snoc, ← h.held]
    unfold heldAfter
    split
    · next hmenu =>
      rw [waitsForMenu_of_not_isSay (by rw [hmenu]; rfl)]
      simp [hmenu]
    · next hmenu =>
      split
      · next hwaits =>
        -- no other line can wait where one begins to
        have hnone : s.held = none :=
          eq_none_of_isSay (fun j hj => ((h.held j).mp hj).menuFollows.2.2)
            (waitsForMenu_iff.mp hwaits).2.1
        simp [hwaits, hnone, eq_comm]
      · next hwaits => simp [hwaits, hmenu]

/-- From a state on, a run only adds lines. -/
theorem Told.runs {tale : List (Instruction × Statement)} {l : List Instruction}
    (h : Told c before l tale s) (hruns : Runs c l s rest t) :
    ∃ between more, Told c (before ++ between) rest (tale ++ more) t := by
  induction hruns with
  | here => exact ⟨[], [], by simpa using h⟩
  | @step i rest t t' _ hstep ih =>
    obtain ⟨between, more, htold⟩ := ih
    obtain ⟨said, htold', -⟩ := htold.step hstep
    refine ⟨between ++ [i], more ++ said, ?_⟩
    rw [← List.append_assoc, ← List.append_assoc]
    exact htold'

/-- Every line so far is told or waits. -/
theorem Told.perm {tale : List (Instruction × Statement)} (h : Told c before rest tale s) :
    (tale.map (·.1) ++ s.held.toList).Perm (dialogue before) := by
  have hahead : (spoken c s.held rest).Perm (s.held.toList ++ dialogue rest) :=
    spoken_perm rest fun j hj => ((h.held j).mp hj).menuFollows.2.2
  have hall : (spoken c none c.instructions).Perm (dialogue before ++ dialogue rest) := by
    have hperm : (spoken c none c.instructions).Perm (dialogue c.instructions) :=
      spoken_perm c.instructions fun j hj => (by cases hj)
    rwa [h.instructions, dialogue_append, ← h.instructions] at hperm
  rw [← h.order] at hall
  have hboth := (hahead.append_left (tale.map (·.1))).symm.trans hall
  rw [← List.append_assoc] at hboth
  exact (List.perm_append_right_iff _).mp hboth

/-- Lines are told for instructions of the script. -/
theorem Told.mem_instructions {tale : List (Instruction × Statement)}
    (h : Told c before rest tale s) :
    ∀ p ∈ tale, p.1 ∈ c.instructions := by
  intro p hp
  have hmem : p.1 ∈ dialogue before :=
    h.perm.mem_iff.mp (List.mem_append_left _ (List.mem_map_of_mem hp))
  rw [h.instructions]
  exact List.mem_append_left _ (List.mem_filter.mp hmem).1

/-- A run to the end is a chain of steps that succeed. -/
theorem runs_of_runFrom {l : List Instruction} {index : Nat} (h : runFrom c s index l = .ok t) :
    Runs c l s [] t := by
  rw [← List.append_nil l] at h ⊢
  obtain ⟨t', k, hruns, hend⟩ := runs_of_ok h
  obtain rfl := Except.ok.inj hend
  exact hruns

/-- A line of dialogue that is not the continuation of one. -/
def isSpeech : Statement → Bool
  | .say _ => true
  | _ => false

/-- A continuation is no speech of its own. -/
theorem Voices.isSpeech_eq {st : Statement} (h : Voices c i st) :
    isSpeech st = i.mnemonic.isSay := by
  cases h with
  | say voice hu => exact (isSay_of_utterance? hu).symm
  | extend hm =>
    rw [hm]
    rfl

theorem isSpeech_of_voices {told : List Instruction} {said : List Statement}
    (h : List.Forall₂ (Voices c) told said) : said.map isSpeech = told.map (·.mnemonic.isSay) := by
  induction h with
  | nil => rfl
  | cons hvoices _ ih => rw [List.map_cons, List.map_cons, hvoices.isSpeech_eq, ih]

/-- The lines of a document with the instructions that they are said for. -/
def tale (c : Context) (d : Document) : List (Instruction × Statement) :=
  (spoken c none c.instructions).zip (lines d)

end Rio.Screenplay

namespace Rio

open Screenplay
open Renpy (Statement)

variable {name : String} {script : List UInt8} {profile : Profile}

/-- What a run has told in a state is the beginning of the whole tale. -/
theorem tale_transpile {before rest : List Instruction} {told : List (Instruction × Statement)}
    {s : State} (hcomplete : (transpile name script profile).isComplete = true)
    (hs : Reached (scriptContext name script profile) rest s)
    (htold : Told (scriptContext name script profile) before rest told s) :
    ∃ more, tale (scriptContext name script profile) (transpile name script profile).document
        = told ++ more ∧
      (told ++ more).map (·.1) = spoken (scriptContext name script profile) none
        (Bytecode.decode profile.version true script) ∧
      (told ++ more).map (·.2) = lines (transpile name script profile).document ∧
      ∀ p ∈ told ++ more, Voices (scriptContext name script profile) p.1 p.2 := by
  obtain ⟨final, hrun⟩ := exists_scriptRun_of_isComplete hcomplete
  obtain ⟨k, hk⟩ := hs.runFrom_eq 0
  obtain ⟨between, more, hend⟩ := htold.runs (runs_of_runFrom (hk.symm.trans hrun))
  have horder := hend.order
  rw [spoken, List.append_nil] at horder
  have hlines : (told ++ more).map (·.2) = lines (transpile name script profile).document := by
    rw [← hend.lines, (transpile_of_ok hrun).2]
    exact (final.document.filter_closeAll rfl).symm
  exact ⟨more, (List.zip_of_prod horder hlines).symm, horder, hlines, hend.voices⟩

/-- The lines of a complete screenplay are those of the dialogue of its script, each once. They
come in the order of the script unless a line that waits for a menu is continued before the
menu. -/
theorem transpile_lines (name : String) (script : List UInt8) (profile : Profile)
    (hcomplete : (transpile name script profile).isComplete = true) :
    List.Forall₂ (Voices (scriptContext name script profile))
        (spoken (scriptContext name script profile) none
          (Bytecode.decode profile.version true script))
        (lines (transpile name script profile).document) ∧
      (spoken (scriptContext name script profile) none
        (Bytecode.decode profile.version true script)).Perm
        (dialogue (Bytecode.decode profile.version true script)) ∧
      (List.Forall₂ (Voices (scriptContext name script profile))
          (dialogue (Bytecode.decode profile.version true script))
          (lines (transpile name script profile).document) ↔
        ¬Overtaken (scriptContext name script profile)
          (Bytecode.decode profile.version true script)) := by
  obtain ⟨told, -, horder, hlines, hvoices⟩ := tale_transpile hcomplete .here (told_start _)
  rw [List.nil_append] at horder hlines hvoices
  have hspoken : List.Forall₂ (Voices (scriptContext name script profile))
      (spoken (scriptContext name script profile) none
        (Bytecode.decode profile.version true script))
      (lines (transpile name script profile).document) := by
    rw [← horder, ← hlines, List.forall₂_map_left_iff, List.forall₂_map_right_iff,
      List.forall₂_same]
    exact hvoices
  refine ⟨hspoken, spoken_perm _ fun j hj => (by cases hj), ?_⟩
  have hlate : Late (scriptContext name script profile) none
      (Bytecode.decode profile.version true script) ↔
      Overtaken (scriptContext name script profile)
        (Bytecode.decode profile.version true script) := by
    simp [Late]
  have hcases := spoken_order (c := scriptContext name script profile)
    (Bytecode.decode profile.version true script) fun j (hj : none = some j) => (by cases hj)
  rcases hcases with ⟨hnot, heq⟩ | ⟨hmust, hne⟩
  · rw [hlate] at hnot
    refine iff_of_true ?_ hnot
    rw [heq] at hspoken
    exact hspoken
  · rw [hlate] at hmust
    refine iff_of_false (fun hordered => hne ?_) (not_not_intro hmust)
    exact (isSpeech_of_voices hspoken).symm.trans (isSpeech_of_voices hordered)

/-- Two lines, a pause and a menu. -/
def linesAndMenu : List UInt8 :=
  [0x41, 0, 0, 0, 0x61, 0, 0x41, 0, 0, 0, 0x62, 0, 0x82, 100, 0, 0,
   0x02, 1, 0, 0, 0, 0x78, 0, 0, 1, 0, 0, 0x62, 0]

/-- The second line waits for the menu and still comes after the first. -/
theorem lines_of_linesAndMenu :
    (transpile "a" linesAndMenu {}).document.rows.map (·.statement.text)
      = ["label RIO_A:", "\"a\"", "pause 0.1", "menu:", "\"b\"", "\"x\" if will_flagbank[1]:",
        "jump RIO_B"] ∧
    List.Forall₂ (Voices (scriptContext "a" linesAndMenu {}))
      (dialogue (Bytecode.decode .standard true linesAndMenu))
      (lines (transpile "a" linesAndMenu {}).document) :=
  ⟨by decide +kernel, (transpile_lines "a" linesAndMenu {} (by decide +kernel)).2.2.mpr
    (by decide +kernel)⟩

/-- A line, its continuation and a menu. -/
def continuedLineAndMenu : List UInt8 :=
  [0x41, 0, 0, 0, 0x61, 0, 0xb6, 0, 0, 0x62, 0, 0x02, 1, 0, 0, 0, 0x78, 0, 0, 1, 0, 0, 0x62, 0]

/-- The continuation comes before the line that it continues. -/
theorem extended_before_said :
    (Bytecode.decode .standard true continuedLineAndMenu).map (·.mnemonic)
      = [.textN, .textExtend, .option, .endOfStream] ∧
    (transpile "a" continuedLineAndMenu {}).isComplete = true ∧
    (transpile "a" continuedLineAndMenu {}).document.rows.map (·.statement.text)
      = ["label RIO_A:", "extend \"b\"", "menu:", "\"a\"", "\"x\" if will_flagbank[1]:",
        "jump RIO_B"] := by
  decide +kernel

end Rio
