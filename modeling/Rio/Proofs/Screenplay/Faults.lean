import Rio.Proofs.Screenplay.Acts
import Rio.Proofs.Screenplay.Reading
import Rio.Proofs.Stage.Places
import Rio.Transpile

/-!
# Why a translation stops

A run halts at an instruction for one of four reasons, and a script that was decoded leaves three
of them. Its operands fit but for one value, an address below zero
(`Rio.Proofs.Screenplay.Reading`); what waits for a menu is always dialogue; a picture can always
be replaced and moved, and only hooks bring in what cannot; and a mask, once set, stays. The last
three are kept by every act (`Ready.act`, `Act.mask_isSome`), so by every step, and
`blocked_of_error` says what is left for a command to halt on.
-/

namespace Rio

/-- A transition that runs by a mask. -/
def Instruction.needsMask (i : Instruction) : Bool :=
  (i.mnemonic == .transition || i.mnemonic == .transitionIo) &&
    match Screenplay.Command.method? i with
    | some (.named t) => Screenplay.isMasked t
    | _ => false

/-- Whether a hook of the profile brings in something drawn elsewhere. -/
def Profile.HasStandIn (p : Profile) : Prop :=
  ∃ hook ∈ p.callHooks, ∃ slot reference, .standIn slot reference ∈ hook.2

/-- What stands in for a picture comes from a hook of the profile. -/
theorem Profile.hasStandIn_of_hooks {p : Profile} {name : String} {slot : Nat} {reference : String}
    (h : .standIn slot reference ∈ p.hooks name) : p.HasStandIn := by
  unfold Profile.hooks at h
  cases hlookup : p.callHooks.lookup name with
  | none =>
    rw [hlookup] at h
    cases h
  | some actions =>
    rw [hlookup] at h
    obtain ⟨before, after, heq, -⟩ := List.lookup_eq_some_iff.mp hlookup
    refine ⟨(name, actions), ?_, slot, reference, h⟩
    rw [heq]
    exact List.mem_append_right _ (List.mem_cons_self ..)

end Rio

namespace Rio.Stage

/-- Every foreground place that is taken holds a picture. -/
def HasPictures (g : Stage) : Prop :=
  ∀ k slot, g.foreground? k = some slot → ∃ p, slot.figure = .picture p

/-- A change of a place does not turn its picture into something else. -/
theorem Slot.Change.picture_of_picture {slot slot' : Slot} {redraw : Bool}
    (h : slot.Change slot' redraw) (hp : ∃ p, slot.figure = .picture p) :
    ∃ p, slot'.figure = .picture p := by
  cases h with
  | same => exact hp
  | picture _ _ => exact ⟨_, rfl⟩
  | clear => exact hp

theorem HasPictures.setForeground {g : Stage} (h : g.HasPictures) {index : Nat} {slot : Slot}
    (hslot : ∃ p, slot.figure = .picture p) : (g.setForeground index slot).HasPictures := by
  intro k slot' hk
  rw [foreground?_setForeground] at hk
  split at hk
  · obtain rfl := Option.some.inj hk
    exact hslot
  · exact h k slot' hk

/-- So no change of the stage brings in anything but pictures. -/
theorem HasPictures.change {g g' : Stage} (h : g.HasPictures) (hchange : g.Change g') :
    g'.HasPictures := by
  cases hchange with
  | newBackground name x y => exact h
  | background _ _ => exact h
  | newForeground name x y _ => exact h.setForeground ⟨_, rfl⟩
  | foreground hslot hchange => exact h.setForeground (hchange.picture_of_picture (h _ _ hslot))
  | newObject name x y => exact h
  | object _ _ => exact h
  | setting tint mask inSegment _ => exact h

/-- Drawing takes away and brings in nothing. -/
theorem HasPictures.draw {g : Stage} (h : g.HasPictures) (drawing : Drawing) :
    (g.draw drawing).1.HasPictures := by
  intro k slot hk
  rw [(drawn drawing g).foreground] at hk
  split at hk
  · -- what is left in a place after drawing is the picture that was there
    cases hslot : g.foreground? k with
    | none =>
      rw [hslot] at hk
      cases hk
    | some old =>
      obtain ⟨figure, pending⟩ := old
      obtain ⟨p, rfl⟩ : ∃ p, figure = .picture p := h k _ hslot
      rw [hslot, drawForeground, drawSlot_picture] at hk
      split at hk
      · cases hk
      · split at hk
        · obtain rfl := Option.some.inj hk
          exact ⟨_, rfl⟩
        · obtain rfl := Option.some.inj hk
          exact ⟨p, rfl⟩
  · exact h k slot hk

end Rio.Stage

namespace Rio.Screenplay

open Renpy (Statement)

variable {c : Context} {P : Statement → Prop} {s s' : State}

/-! ## What every act keeps -/

/-- A state in which only the command itself can go wrong. -/
structure Ready (c : Context) (s : State) : Prop where
  /-- What waits for a menu is dialogue of the script. -/
  held : ∀ i, s.held = some i → i ∈ c.instructions ∧ i.mnemonic.isSay
  pictures : ¬c.profile.HasStandIn → s.stage.HasPictures

/-- At the start the stage is empty and no line waits. -/
theorem ready_start : Ready c (start c) :=
  ⟨fun _ h => (by cases h), fun _ _ _ h => (by cases h)⟩

/-- By cases on the act. -/
theorem Ready.act (h : Ready c s) (hact : Act c P s s') : Ready c s' := by
  cases hact with
  | emit _ | header _ | remark _ | close _ | report _ | remember _ _ _ _ _ | scope _ _ | ask _ =>
    exact ⟨h.held, h.pictures⟩
  | place _ _ =>
    unfold State.placeLabel
    split
    · exact ⟨h.held, h.pictures⟩
    · exact h
  | hold hmem hsay =>
    refine ⟨fun i hi => ?_, h.pictures⟩
    obtain rfl := Option.some.inj hi
    exact ⟨hmem, hsay⟩
  | release => exact ⟨fun i hi => (by cases hi), h.pictures⟩
  | stage hchange => exact ⟨h.held, fun hno => (h.pictures hno).change hchange⟩
  | draw =>
    rw [draw_eq]
    exact ⟨h.held, fun hno => (h.pictures hno).draw _⟩
  | standIn hmem => exact ⟨h.held, fun hno => absurd (Profile.hasStandIn_of_hooks hmem) hno⟩

/-- A mask, once set, stays. -/
theorem Act.mask_isSome (hact : Act c P s s') (h : s.stage.mask.isSome) :
    s'.stage.mask.isSome := by
  cases hact with
  | emit _ | header _ | remark _ | close _ | report _ | remember _ _ _ _ _ | scope _ _ | ask _
  | hold _ _ | release | standIn _ => exact h
  | place _ _ =>
    unfold State.placeLabel
    split
    · exact h
    · exact h
  | stage hchange =>
    cases hchange with
    | setting tint mask inSegment hmask => exact hmask h
    | newBackground | background | newForeground | foreground | newObject | object => exact h
  | draw =>
    rw [draw_eq]
    exact (Stage.drawn c.drawing s.stage).mask ▸ h

/-! ## What a command can halt on -/

/-- An instruction whose line can be said. -/
def Sayable (i : Instruction) : Prop :=
  i.mnemonic.isSay ∧ (Command.utterance? i).isSome

theorem speak_ne_error {i : Instruction} (h : Sayable i) (halt : Halt) :
    speak c s i ≠ .error halt := by
  obtain ⟨hsay, hutter⟩ := h
  obtain ⟨u, hu⟩ := Option.isSome_iff_exists.mp hutter
  rw [speak, if_pos hsay, hu]
  exact fun h => (by cases h)

/-- A menu halts only over the line that waits for it. -/
theorem menu_ne_error (hheld : ∀ i, s.held = some i → Sayable i) (choices : List MenuOption)
    (halt : Halt) : menu c s choices ≠ .error halt := by
  intro h
  unfold menu at h
  dsimp only at h
  split at h
  · next i _ hi =>
    cases hspeak : speak c { s.header .menu with held := none } i with
    | error halt' => exact speak_ne_error (hheld i hi) halt' hspeak
    | ok t =>
      rw [hspeak] at h
      cases h
  · cases h

/-- Only something drawn elsewhere cannot be replaced. -/
theorem figure_of_replace_error {slot slot' : Stage.Slot} {name : String} {x y : Int}
    {cause : Stage.FigureFault} (h : slot.replace name x y = (slot', .error cause)) :
    ∀ p, slot.figure ≠ .picture p := by
  obtain ⟨figure, pending⟩ := slot
  intro p hp
  dsimp only at hp
  subst hp
  cases h

/-- A place that holds something other than a picture cannot be given one. -/
theorem putForeground_error {addr index : Nat} {name : String} {x y : Int} {halt : Halt}
    (h : putForeground s addr index name x y = .error halt) :
    ¬s.stage.HasPictures ∧ ∃ cause, halt.fault = .figure addr cause := by
  unfold putForeground at h
  split at h
  · cases h
  · next slot hslot =>
    split at h
    · cases h
    · cases hreplace : slot.replace name x y with
      | mk slot' result =>
        rw [hreplace] at h
        cases result with
        | ok changed => cases h
        | error cause =>
          cases h
          refine ⟨fun hpictures => ?_, cause, rfl⟩
          obtain ⟨p, hp⟩ := hpictures index slot hslot
          exact figure_of_replace_error hreplace p hp

theorem showForeground_error {addr index : Nat} {name : String} {x y : Int} {untinted : Bool}
    {halt : Halt} (h : showForeground s addr index name x y untinted = .error halt) :
    ¬s.stage.HasPictures ∧ ∃ cause, halt.fault = .figure addr cause := by
  unfold showForeground at h
  cases hput : putForeground s addr index name x y with
  | ok t =>
    rw [hput] at h
    cases h
  | error halt' =>
    rw [hput] at h
    cases h
    exact putForeground_error hput

/-- Only a picture is replaced by an object of its name. -/
theorem showObject_ne_error {addr : Nat} {name : String} {x y : Int} {halt : Halt} :
    showObject s addr name x y ≠ .error halt := by
  intro h
  unfold showObject at h
  dsimp only at h
  split at h
  · next slot hslot =>
    split at h
    · next hname =>
      obtain ⟨figure, pending⟩ := slot
      cases figure with
      | picture p => cases h
      | standIn reference => cases hname
    · cases h
  · cases h

/-- Nor can it be moved. -/
theorem moveForeground_error {addr : Nat} {kind : Stage.FrameKind} {index : Int} {m : Motion}
    {halt : Halt} (h : moveForeground s addr kind index m = .error halt) :
    ¬s.stage.HasPictures ∧ ∃ cause, halt.fault = .figure addr cause := by
  unfold moveForeground at h
  split at h
  · cases h
  · next slot hslot =>
    obtain ⟨figure, pending⟩ := slot
    cases figure with
    | picture p => cases h
    | standIn reference =>
      cases h
      refine ⟨fun hpictures => ?_, _, rfl⟩
      obtain ⟨p, hp⟩ := hpictures _ _ (foreground?_of_signed hslot)
      cases hp

theorem addMotion_error {addr : Nat} {m : Motion} {halt : Halt}
    (h : addMotion s addr m = .error halt) :
    ¬s.stage.HasPictures ∧ ∃ cause, halt.fault = .figure addr cause := by
  unfold addMotion at h
  split at h
  · cases h
  · split at h
    · cases h
    · split at h
      · exact moveForeground_error h
      · exact moveForeground_error h

/-- Every transition that runs by a mask has its effect once there is one. -/
theorem maskedEffect?_isSome {t : Transition} (h : isMasked t) (mask time : String) :
    (maskedEffect? t mask time).isSome := by
  unfold isMasked at h
  cases t with
  | maskWipe _ | maskDissolve _ | maskWhiteOut _ | newZoomOut | oldZoomIn => rfl
  | _ => cases h

/-- The only effects that can fail are those by a mask, where none is set. -/
theorem showEffect_error {addr : Nat} {method : Method} {ms : Int} {halt : Halt}
    (h : showEffect c s addr method ms = .error halt) :
    ∃ t, method = .named t ∧ isMasked t ∧ s.stage.mask = none ∧
      halt.fault = .missingMask addr t.name := by
  unfold showEffect at h
  dsimp only at h
  cases method with
  | code n => cases h
  | named t =>
    dsimp only at h
    split at h
    · next hmasked =>
      split at h
      · cases h
      · next hnone =>
        cases h
        refine ⟨t, rfl, hmasked, ?_, rfl⟩
        cases hmask : s.stage.mask with
        | none => rfl
        | some mask =>
          have hsome := maskedEffect?_isSome hmasked mask (transitionTime ms)
          rw [hmask, Option.bind_some] at hnone
          rw [hnone] at hsome
          cases hsome
    · split at h
      · split at h <;> cases h
      · split at h <;> cases h

/-- Why a command of a decoded script halts. -/
inductive Blocked (s : State) (i : Instruction) (command : Command) : Fault → Prop where
  | mask {t : Transition} {ms : Int} : command = .transition (.named t) ms → isMasked t →
      s.stage.mask = none → Blocked s i command (.missingMask i.addr t.name)
  | figure {cause : Stage.FigureFault} : ¬s.stage.HasPictures →
      Blocked s i command (.figure i.addr cause)

theorem Blocked.of_figure {i : Instruction} {command : Command} {halt : Halt}
    (h : ¬s.stage.HasPictures ∧ ∃ cause, halt.fault = .figure i.addr cause) :
    Blocked s i command halt.fault := by
  obtain ⟨hpictures, cause, hfault⟩ := h
  rw [hfault]
  exact .figure hpictures

/-- By cases on the command: each that can halt has its reason. -/
theorem blocked_of_error {i : Instruction} {rest : List Instruction} {command : Command}
    {halt : Halt} (hheld : ∀ j, s.held = some j → Sayable j)
    (hsay : command = .say → Sayable i) (hsleep : ∀ ms, command = .sleep ms → ms.isSome)
    (hframe : ∀ motion, command = .keyFrame motion → motion.isSome)
    (h : execute c i rest s command = .error halt) : Blocked s i command halt.fault := by
  cases command with
  | menu choices => exact absurd h (menu_ne_error hheld choices halt)
  | say =>
    change say c s i rest = .error halt at h
    unfold say at h
    split at h
    · cases h
    · exact absurd h (speak_ne_error (hsay rfl) halt)
  | sleep ms =>
    obtain ⟨n, rfl⟩ := Option.isSome_iff_exists.mp (hsleep ms rfl)
    change sleep s i (some n) = .error halt at h
    unfold sleep at h
    split at h <;> cases h
  | foreground index name x y untinted => exact .of_figure (showForeground_error h)
  | object name x y => exact absurd h showObject_ne_error
  | transition method ms =>
    change transition c s i.addr method ms = .error halt at h
    unfold transition at h
    dsimp only at h
    split at h
    · cases h
    · obtain ⟨t, rfl, hmasked, hmask, hfault⟩ := showEffect_error h
      rw [hfault]
      refine .mask rfl hmasked ?_
      rw [draw_eq] at hmask
      exact (Stage.drawn c.drawing s.stage).mask ▸ hmask
  | keyFrame motion =>
    obtain ⟨m, rfl⟩ := Option.isSome_iff_exists.mp (hframe motion rfl)
    change keyFrame c s i (some m) = .error halt at h
    unfold keyFrame at h
    split at h
    · cases h
    · exact .of_figure (addMotion_error h)
  | _ => cases h

/-! ## Steps and runs -/

/-- The transition that a command comes from. -/
theorem needsMask_of_command {i : Instruction} {t : Transition} {ms : Int}
    (h : Reading.ofInstruction i = .command (.transition (.named t) ms)) (hmasked : isMasked t) :
    i.needsMask := by
  have hm : i.mnemonic = .transition ∨ i.mnemonic = .transitionIo := by
    have hfrom := isFrom_of_command h
    generalize i.mnemonic = m at hfrom
    cases m with
    | transition => exact .inl rfl
    | transitionIo => exact .inr rfl
    | _ => cases hfrom
  have hmethod : Command.method? i = some (.named t) := by
    have hread : Reading.ofInstruction i
        = .ofOption (do return .transition (← Command.method? i) (← i.int? 1)) := by
      rcases hm with hm | hm <;> rw [Reading.ofInstruction, hm]
    rw [h] at hread
    have hsome := ofOption_eq_command_iff.mp hread.symm
    simp only [Option.bind_eq_bind, Option.bind_eq_some_iff, Option.pure_def, Option.some.injEq,
      Command.transition.injEq] at hsome
    obtain ⟨method, hmethod, _, -, rfl, -⟩ := hsome
    exact hmethod
  unfold Instruction.needsMask
  rcases hm with hm | hm <;> simp [hm, hmethod, hmasked]

/-- Where a step of a decoded script halts. -/
theorem step_error (hmet : ∀ i ∈ c.instructions, ∀ need ∈ i.mnemonic.needs, need.Met i)
    {i : Instruction} (hi : i ∈ c.instructions) {rest : List Instruction} (hs : Ready c s)
    {halt : Halt} (h : step c s i rest = .error halt) :
    Reading.ofInstruction i = .malformed ∧ halt.fault = .operands i.addr i.mnemonic ∨
      (i.needsMask ∧ s.stage.mask = none ∧ ∃ t, halt.fault = .missingMask i.addr t) ∨
      c.profile.HasStandIn ∧ ∃ cause, halt.fault = .figure i.addr cause := by
  rcases step_error_cases h with ⟨hread, rfl⟩ | ⟨command, hread, hexec⟩
  · exact .inl ⟨hread, rfl⟩
  · have hacts : Acts c (fun _ => True) s (announce c (s.arrive c i rest) i) :=
      announce_arrive_acts (allowed_all c).toAllowedBefore hi rest
    have hready := hacts.preserves (fun hact hs => Ready.act hs hact) hs
    have hsayable : ∀ j ∈ c.instructions, j.mnemonic.isSay → Sayable j :=
      fun j hj hsay => ⟨hsay, utterance?_isSome (hmet j hj) hsay⟩
    have hblocked := blocked_of_error
      (fun j hj => hsayable j (hready.held j hj).1 (hready.held j hj).2)
      (fun hsay => hsayable i hi (by subst hsay; exact isFrom_of_command hread))
      (fun ms hms => isSome_of_sleep (hmet i hi) (hms ▸ hread))
      (fun motion hmotion => isSome_of_keyFrame (hmet i hi) (hmotion ▸ hread)) hexec
    generalize halt.fault = fault at hblocked ⊢
    cases hblocked with
    | mask hcommand hmasked hnone =>
      refine .inr (.inl ⟨needsMask_of_command (hcommand ▸ hread) hmasked, ?_, _, rfl⟩)
      -- a mask that was set before the step would still be there
      cases hmask : s.stage.mask with
      | none => rfl
      | some mask =>
        have hsome := hacts.preserves Act.mask_isSome (by rw [hmask]; rfl)
        rw [hnone] at hsome
        cases hsome
    | figure hpictures =>
      refine .inr (.inr ⟨?_, _, rfl⟩)
      exact Classical.byContradiction fun hno => hpictures (hready.pictures hno)

/-- An instruction that is gone through is not malformed. -/
theorem ne_malformed_of_step {i : Instruction} {rest : List Instruction}
    (h : step c s i rest = .ok s') : Reading.ofInstruction i ≠ .malformed := by
  cases stepped_of_ok h with
  | ending hend =>
    rw [Reading.ofInstruction, hend]
    exact Reading.noConfusion
  | unhandled _ hread =>
    rw [hread]
    exact Reading.noConfusion
  | command _ hread _ =>
    rw [hread]
    exact Reading.noConfusion

/-- After the instruction that sets a mask there is one. -/
theorem mask_isSome_of_step {i : Instruction} {rest : List Instruction}
    (hm : i.mnemonic = .setTransMask) (h : step c s i rest = .ok s') : s'.stage.mask.isSome := by
  have hread : Reading.ofInstruction i = .ofOption ((i.bytes? 0).map Command.mask) := by
    rw [Reading.ofInstruction, hm]
  cases stepped_of_ok h with
  | ending hend => rw [hm] at hend; cases hend
  | unhandled _ hunhandled =>
    rw [hread] at hunhandled
    cases hbytes : i.bytes? 0 <;> rw [hbytes] at hunhandled <;> cases hunhandled
  | command _ hcommand hexec =>
    rw [hread] at hcommand
    obtain ⟨name, -, rfl⟩ := Option.map_eq_some_iff.mp (ofOption_eq_command_iff.mp hcommand)
    obtain rfl := Except.ok.inj hexec
    rfl

/-- What is known after the instructions `before`. -/
structure Passed (c : Context) (before : List Instruction) (s : State) : Prop where
  ready : Ready c s
  mask : (∃ j ∈ before, j.mnemonic = .setTransMask) → s.stage.mask.isSome
  formed : ∀ j ∈ before, Reading.ofInstruction j ≠ .malformed

theorem passed_start : Passed c [] (start c) :=
  ⟨ready_start, fun ⟨_, hj, _⟩ => (by cases hj), fun _ hj => (by cases hj)⟩

/-- A step adds its instruction to those that were passed. -/
theorem Passed.step {before : List Instruction} (h : Passed c before s) {i : Instruction}
    (hi : i ∈ c.instructions) {rest : List Instruction} (hstep : step c s i rest = .ok s') :
    Passed c (before ++ [i]) s' := by
  have hacts := step_acts (allowed_all c) hi hstep
  refine ⟨hacts.preserves (fun hact hs => Ready.act hs hact) h.ready, ?_, ?_⟩
  · rintro ⟨j, hj, hm⟩
    rcases List.mem_append.mp hj with hj | hj
    · exact hacts.preserves Act.mask_isSome (h.mask ⟨j, hj, hm⟩)
    · obtain rfl := List.mem_singleton.mp hj
      exact mask_isSome_of_step hm hstep
  · intro j hj
    rcases List.mem_append.mp hj with hj | hj
    · exact h.formed j hj
    · obtain rfl := List.mem_singleton.mp hj
      exact ne_malformed_of_step hstep

/-- A run through a decoded script either goes through all of it or halts for one of three
reasons. -/
theorem run_cases (hmet : ∀ i ∈ c.instructions, ∀ need ∈ i.mnemonic.needs, need.Met i) :
    (∀ s', runFrom c (start c) 0 c.instructions = .ok s' → Passed c c.instructions s') ∧
      ∀ stop halt, runFrom c (start c) 0 c.instructions = .error (stop, halt) →
        ∃ before i rest, before ++ i :: rest = c.instructions ∧
          (Reading.ofInstruction i = .malformed ∧ halt.fault = .operands i.addr i.mnemonic ∨
            (i.needsMask ∧ (∀ j ∈ before, j.mnemonic ≠ .setTransMask) ∧
              ∃ t, halt.fault = .missingMask i.addr t) ∨
            c.profile.HasStandIn ∧ ∃ cause, halt.fault = .figure i.addr cause) := by
  have hmem : ∀ before i rest, before ++ i :: rest = c.instructions → i ∈ c.instructions :=
    fun before i rest hl => hl ▸ List.mem_append_right _ (List.mem_cons_self ..)
  obtain ⟨hok, herror⟩ := runFrom_induction (I := Passed c)
    (fun before i rest s s' hl hs hstep => Passed.step hs (hmem before i rest hl) hstep)
    c.instructions [] (start c) 0 rfl passed_start
  refine ⟨hok, fun stop halt h => ?_⟩
  obtain ⟨before, i, rest, s, hl, hs, hstep⟩ := herror stop halt h
  refine ⟨before, i, rest, hl, ?_⟩
  rcases step_error hmet (hmem before i rest hl) hs.ready hstep with hmalformed | hmask | hfigure
  · exact .inl hmalformed
  · obtain ⟨hneeds, hnone, hfault⟩ := hmask
    refine .inr (.inl ⟨hneeds, fun j hj hm => ?_, hfault⟩)
    have hsome := hs.mask ⟨j, hj, hm⟩
    rw [hnone] at hsome
    cases hsome
  · exact .inr (.inr hfigure)

end Rio.Screenplay

namespace Rio

open Screenplay

/-- Why a translation stops, and when it does not: at a jump or branch to a negative address,
which stops every translation; at a transition that runs by a mask while none has been set; and at
something that a hook of the profile brought in. -/
theorem transpile_fault_cases (name : String) (script : List UInt8) (profile : Profile)
    (hlength : script.length < 0x80000000) :
    (∀ addr m, (transpile name script profile).fault ≠ some (.notDialogue addr m)) ∧
      (∀ addr m, (transpile name script profile).fault = some (.operands addr m) →
        ∃ i ∈ Bytecode.decode profile.version true script,
          i.addr = addr ∧ i.mnemonic = m ∧ i.isMisdirected = true) ∧
      (∀ addr t, (transpile name script profile).fault = some (.missingMask addr t) →
        ∃ before i after, before ++ i :: after = Bytecode.decode profile.version true script ∧
          i.addr = addr ∧ i.needsMask = true ∧ ∀ j ∈ before, j.mnemonic ≠ .setTransMask) ∧
      (∀ addr cause, (transpile name script profile).fault = some (.figure addr cause) →
        profile.HasStandIn) ∧
      ((∀ i ∈ Bytecode.decode profile.version true script, i.isMisdirected = false) →
        (∀ before i after, before ++ i :: after = Bytecode.decode profile.version true script →
          i.needsMask = true → ∃ j ∈ before, j.mnemonic = .setTransMask) →
        ¬profile.HasStandIn → (transpile name script profile).isComplete = true) ∧
      ((∃ i ∈ Bytecode.decode profile.version true script, i.isMisdirected = true) →
        (transpile name script profile).isComplete = false) := by
  have hmet := Bytecode.decode_meets profile.version script
  have hplaced := Bytecode.decode_placed profile.version true script
  have hmalformed : ∀ i ∈ Bytecode.decode profile.version true script,
      (Reading.ofInstruction i = .malformed ↔ i.isMisdirected = true) := by
    intro i hi
    have hle := hplaced.next_le i hi
    exact ofInstruction_eq_malformed_iff (hmet i hi) (by omega)
  -- all six parts follow from the same two cases: a run to the end, or the instruction it halts at
  obtain ⟨hok, herror⟩ := run_cases (c := scriptContext name script profile) hmet
  unfold Screenplay.isComplete
  cases hrun : scriptRun name script profile with
  | ok s =>
    have hformed := (hok s hrun).formed
    rw [(transpile_of_ok hrun).1]
    refine ⟨fun _ _ h => (by cases h), fun _ _ h => (by cases h), fun _ _ h => (by cases h),
      fun _ _ h => (by cases h), fun _ _ _ => rfl, ?_⟩
    rintro ⟨i, hi, hmis⟩
    exact absurd ((hmalformed i hi).mpr hmis) (hformed i hi)
  | error stopped =>
    obtain ⟨stop, halt⟩ := stopped
    obtain ⟨before, i, after, hsplit, hcases⟩ := herror stop halt hrun
    change before ++ i :: after = Bytecode.decode profile.version true script at hsplit
    have hi : i ∈ Bytecode.decode profile.version true script :=
      hsplit ▸ List.mem_append_right _ (List.mem_cons_self ..)
    rw [(transpile_of_error hrun).1]
    rcases hcases with ⟨hread, hfault⟩ | ⟨hneeds, hnone, t, hfault⟩ | ⟨hhook, cause, hfault⟩
    · rw [hfault]
      have hmis := (hmalformed i hi).mp hread
      refine ⟨fun _ _ h => (by cases h), ?_, fun _ _ h => (by cases h), fun _ _ h => (by cases h),
        ?_, fun _ => rfl⟩
      · intro addr m h
        cases h
        exact ⟨i, hi, rfl, rfl, hmis⟩
      · intro hall
        rw [hall i hi] at hmis
        cases hmis
    · rw [hfault]
      refine ⟨fun _ _ h => (by cases h), fun _ _ h => (by cases h), ?_, fun _ _ h => (by cases h),
        ?_, fun _ => rfl⟩
      · intro addr t' h
        cases h
        exact ⟨before, i, after, hsplit, rfl, hneeds, hnone⟩
      · intro _ hall
        obtain ⟨j, hj, hm⟩ := hall before i after hsplit hneeds
        exact absurd hm (hnone j hj)
    · rw [hfault]
      exact ⟨fun _ _ h => (by cases h), fun _ _ h => (by cases h), fun _ _ h => (by cases h),
        fun _ _ _ => hhook, fun _ _ hno => absurd hhook hno, fun _ => rfl⟩

/-- A script that sets a mask before the transition that needs it, and one whose jump leads to minus
one: the first is translated as a whole, the second is not. -/
theorem translated_with_mask_not_with_negative_jump :
    (transpile "a" [0x54, 0x6d, 0, 0x4a, 0x17, 0, 0, 0] {}).isComplete = true ∧
      (transpile "a" [0x06, 0xff, 0xff, 0xff, 0xff, 0] {}).isComplete = false := by
  constructor
  · refine (transpile_fault_cases "a" [0x54, 0x6d, 0, 0x4a, 0x17, 0, 0, 0] {} (by decide)).2.2.2.2.1
      ?_ ?_ ?_
    · decide +kernel
    · -- the mask is set by the first instruction
      have hhead : (Bytecode.decode .standard true [0x54, 0x6d, 0, 0x4a, 0x17, 0, 0, 0]).head?.map
          (·.mnemonic) = some .setTransMask := by
        decide +kernel
      intro before i after hsplit hneeds
      rw [← hsplit] at hhead
      cases before with
      | nil =>
        have hm : i.mnemonic = .setTransMask := Option.some.inj hhead
        rw [Instruction.needsMask, hm] at hneeds
        cases hneeds
      | cons j before => exact ⟨j, List.mem_cons_self .., Option.some.inj hhead⟩
    · rintro ⟨hook, hmem, -⟩
      cases hmem
  · refine (transpile_fault_cases "a" [0x06, 0xff, 0xff, 0xff, 0xff, 0] {} (by decide)).2.2.2.2.2 ?_
    decide +kernel

end Rio
