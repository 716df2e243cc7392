import Rio.Proofs.Screenplay.Reading
import Rio.Proofs.Stage.Tracking

/-!
# The screen shows the stage after every drawing

A run draws its stage at each transition and at the end of each animation; `flushes` lists the
states right after these drawings. If no hook writes statements of its own and no scenes are
skipped, then

> `transpile_displays`: reading the screenplay up to a drawing leaves the screen as the stage is
> after it. Each place shows the image that the stage has there, under its name in upper case and
> where it stands, and shows nothing if the stage has none. After the last drawing what is shown
> stays.

Everything else that a run writes is `Quiet`: it does not change what is shown. So every act other
than a drawing leaves the screen up to date with the stage as far as `Tracks` asks
(`Act.displays`), and a step consists of quiet acts, its drawing if it has one, and again of quiet
acts (`quiet_after_flush`). A run that halts may have drawn before: what was written stays, so the
statements up to a drawing are the first ones of the screenplay in any case.
-/

namespace Rio.Screenplay

open Renpy (Document Place Statement Screen replay)

variable {c : Context} {s s' f : State} {i : Instruction} {rest : List Instruction}

/-! ## Drawings of a run -/

/-- The state right after the drawing of an instruction that draws: a transition, or a play at the
end of an animation. -/
def flush? (c : Context) (s : State) (i : Instruction) (rest : List Instruction) : Option State :=
  let s := announce c (s.arrive c i rest) i
  match Reading.ofInstruction i with
  | .command (.transition _ _) => some (draw c s).2
  | .command .play =>
    if animationEnds rest then
      some (draw c { s with stage := { s.stage with inSegment := false } }).2
    else none
  | _ => none

/-- The states right after the drawings of a run. -/
def flushes (c : Context) (s : State) : List Instruction → List State
  | [] => []
  | i :: rest =>
    (flush? c s i rest).toList ++
      match step c s i rest with
      | .ok s' => flushes c s' rest
      | .error _ => []

/-- Whether a command may draw. -/
def Command.draws : Command → Bool
  | .transition _ _ | .play => true
  | _ => false

theorem flush?_eq_none
    (h : ∀ command, Reading.ofInstruction i = .command command → command.draws = false) :
    flush? c s i rest = none := by
  unfold flush?
  dsimp only
  split
  · next hread => cases h _ hread
  · next hread => cases h _ hread
  · rfl

theorem flush?_of_not_draws {command : Command}
    (hread : Reading.ofInstruction i = .command command) (hdraws : command.draws = false) :
    flush? c s i rest = none :=
  flush?_eq_none fun command' hread' => by
    rw [hread] at hread'
    cases hread'
    exact hdraws

/-! ## What acts do to the screen -/

/-- A statement that does not change what is shown. -/
def Quiet (st : Statement) : Prop :=
  st.isDisplay = false

/-- The screen after what was written is up to date with the stage. -/
def Displays (s : State) : Prop :=
  s.stage.Tracks (replay s.document.statements).images

theorem replay_append (written added : List Statement) :
    replay (written ++ added) = added.foldl Screen.read (replay written) :=
  List.foldl_append

theorem Written.images_eq (h : Written Quiet s s') :
    (replay s'.document.statements).images = (replay s.document.statements).images := by
  obtain ⟨added, hstatements, hquiet⟩ := h
  rw [hstatements, replay_append, Screen.images_of_not_isDisplay hquiet]

/-- A drawing puts its cues onto the screen. -/
theorem images_draw (c : Context) (s : State) (place : Place) :
    (replay (draw c s).2.document.statements).images place
      = (s.stage.draw c.drawing).2.1.foldl (Stage.Cue.paint place)
          ((replay s.document.statements).images place) := by
  rw [statements_draw, replay_append, Stage.images_cues]

theorem stage_draw (c : Context) (s : State) :
    (draw c s).2.stage = (s.stage.draw c.drawing).1 := by
  rw [draw_eq]

theorem Displays.draw (h : Displays s) (c : Context) : Displays (draw c s).2 := by
  have himages : (replay (Screenplay.draw c s).2.document.statements).images
      = fun place => (s.stage.draw c.drawing).2.1.foldl (Stage.Cue.paint place)
          ((replay s.document.statements).images place) :=
    funext (images_draw c s)
  unfold Displays
  rw [himages, stage_draw]
  exact Stage.Tracks.draw h c.drawing

/-- After a drawing the screen shows the stage. -/
theorem Displays.images_draw_eq (h : Displays s) (c : Context) (place : Place) :
    (replay (Screenplay.draw c s).2.document.statements).images place
      = (Screenplay.draw c s).2.stage.image? place := by
  rw [images_draw, stage_draw]
  exact (Stage.Tracks.settled h c.drawing place).current

/-- Nothing but the script itself writes or brings in anything. -/
structure Plain (c : Context) : Prop where
  hooks : ∀ name, c.profile.hooks name = []
  skip : c.profile.adultSkip.enabled = false

/-- A quiet act leaves the stage as it is or changes it in one of the known ways. -/
theorem Act.stage_cases (hc : Plain c) (h : Act c Quiet s s') :
    s'.stage = s.stage ∨ s.stage.Change s'.stage := by
  cases h with
  | draw hcue => cases hcue (.hide .object) rfl
  | stage hchange => exact .inr hchange
  | @standIn name slot reference hmem =>
    rw [hc.hooks name] at hmem
    cases hmem
  | place _ _ =>
    refine .inl ?_
    unfold State.placeLabel
    split <;> rfl
  | _ => exact .inl rfl

theorem Act.displays (hc : Plain c) (hact : Act c Quiet s s') (h : Displays s) : Displays s' := by
  unfold Displays
  rw [hact.written.images_eq]
  rcases hact.stage_cases hc with hsame | hchange
  · rw [hsame]
    exact h
  · exact Stage.Tracks.change h hchange

theorem Acts.displays (hc : Plain c) (hacts : Acts c Quiet s s') (h : Displays s) : Displays s' :=
  hacts.preserves (fun hact => hact.displays hc) h

theorem displays_start (c : Context) : Displays (start c) :=
  Stage.tracks_empty

/-! ## Steps -/

theorem Plain.allowedBefore (hc : Plain c) : AllowedBefore c Quiet where
  pass := rfl
  skip := fun henabled => by
    rw [hc.skip] at henabled
    cases henabled
  label := fun _ => rfl

/-- A command that does not draw writes nothing that shows. -/
theorem quiet_of_writes {command : Command} (hdraws : command.draws = false) {st : Statement}
    (h : command.writes st = true) : Quiet st := by
  cases st with
  | blackScene => cases command <;> cases h
  | shot | atl | hide =>
    cases command with
    | transition | play => cases hdraws
    | _ => cases h
  | _ => rfl

/-- After its drawing, if it has one, a step consists of quiet acts. -/
theorem quiet_after_flush (hc : Plain c) (hi : i ∈ c.instructions)
    (hstep : step c s i rest = .ok s') : Acts c Quiet ((flush? c s i rest).getD s) s' := by
  have hbefore : Acts c Quiet s (announce c (s.arrive c i rest) i) :=
    announce_arrive_acts hc.allowedBefore hi rest
  cases stepped_of_ok hstep with
  | ending hend =>
    have hnone : flush? c s i rest = none := flush?_eq_none fun command hread => by
      rw [Reading.ofInstruction, hend] at hread
      cases hread
    rw [hnone]
    exact (closeBranches_acts (P := Quiet) rfl _).tail (.place rfl rfl)
  | unhandled hend hread =>
    have hnone : flush? c s i rest = none := flush?_eq_none fun command hcommand => by
      rw [hread] at hcommand
      cases hcommand
    rw [hnone]
    exact (arrive_acts hc.allowedBefore hi rest).remark _
  | @command command _ hend hread hexec =>
    cases hdraws : command.draws with
    | false =>
      rw [flush?_of_not_draws hread hdraws]
      refine hbefore.trans (execute_acts (fun st => quiet_of_writes hdraws) ?_ hexec)
      intro name text hmem
      rw [hc.hooks name] at hmem
      cases hmem
    | true =>
      unfold flush?
      rw [hread]
      cases command with
      -- the step goes on where its drawing ended: with the effect, or with nothing
      | transition method ms =>
        change transition c _ i.addr method ms = .ok s' at hexec
        unfold transition at hexec
        dsimp only at hexec
        split at hexec
        · obtain rfl := Except.ok.inj hexec
          exact .refl
        · exact showEffect_acts (fun _ => rfl) hexec
      | play =>
        obtain rfl := Except.ok.inj hexec
        dsimp only
        unfold play
        split
        · exact .refl
        -- a play within a segment draws nothing
        · exact hbefore.trans (.tail (.single (.remark _)) (segment_act _ true))
      | _ => cases hdraws

/-- The state that a step leaves, whether it goes on or halts. -/
def Step.state : Step → State
  | .ok s => s
  | .error halt => halt.state

/-- Also a step that halts writes only what is quiet after its drawing. -/
theorem written_after_flush (hc : Plain c) (hi : i ∈ c.instructions) :
    Written Quiet ((flush? c s i rest).getD s) (Step.state (step c s i rest)) := by
  have hbefore := (announce_arrive_acts (s := s) hc.allowedBefore hi rest).written
  cases hstep : step c s i rest with
  | ok s' => exact (quiet_after_flush hc hi hstep).written
  | error halt =>
    rcases step_error_cases hstep with ⟨hread, rfl⟩ | ⟨command, hread, hexec⟩
    · have hnone : flush? c s i rest = none := flush?_eq_none fun command hcommand => by
        rw [hread] at hcommand
        cases hcommand
      rw [hnone]
      exact hbefore
    · cases hdraws : command.draws with
      | false =>
        rw [flush?_of_not_draws hread hdraws]
        exact hbefore.trans (execute_error_written (fun st => quiet_of_writes hdraws) hexec)
      | true =>
        unfold flush?
        rw [hread]
        cases command with
        | transition method ms =>
          change transition c _ i.addr method ms = .error halt at hexec
          unfold transition at hexec
          dsimp only at hexec
          split at hexec
          · cases hexec
          · -- the effect that lacks its mask comes after the drawing
            exact .none (congrArg (·.document.statements) (state_of_showEffect_error hexec))
        | play => cases hexec
        | _ => cases hdraws

/-- What a drawing is carried out on is up to date. -/
theorem Displays.flush (hc : Plain c) (hi : i ∈ c.instructions) (h : Displays s)
    (hflush : flush? c s i rest = some f) :
    Displays f ∧ (∀ place, (replay f.document.statements).images place = f.stage.image? place) ∧
      s.document.statements <+: f.document.statements := by
  have hbefore := announce_arrive_acts (s := s) hc.allowedBefore hi rest
  -- both kinds of drawings come after quiet acts
  have hdraw : ∀ t, Acts c Quiet s t → f = (Screenplay.draw c t).2 → Displays f ∧
      (∀ place, (replay f.document.statements).images place = f.stage.image? place) ∧
      s.document.statements <+: f.document.statements := by
    rintro t hacts rfl
    have ht := hacts.displays hc h
    refine ⟨ht.draw c, ht.images_draw_eq c, hacts.written.isPrefix.trans ?_⟩
    rw [statements_draw]
    exact List.prefix_append ..
  unfold flush? at hflush
  dsimp only at hflush
  split at hflush
  · exact hdraw _ hbefore (Option.some.inj hflush).symm
  · split at hflush
    · exact hdraw _ (hbefore.tail (segment_act _ false)) (Option.some.inj hflush).symm
    · cases hflush
  · cases hflush

/-! ## Runs -/

/-- The state that a run leaves. -/
def runState : Except (Nat × Halt) State → State
  | .ok s => s
  | .error (_, halt) => halt.state

/-- A step up to its drawing. -/
theorem Displays.getD_flush? (hc : Plain c) (hi : i ∈ c.instructions) (h : Displays s) :
    Displays ((flush? c s i rest).getD s) ∧
      s.document.statements <+: ((flush? c s i rest).getD s).document.statements := by
  cases hflush : flush? c s i rest with
  | none => exact ⟨h, List.prefix_refl _⟩
  | some f =>
    obtain ⟨hf, -, hkept⟩ := h.flush hc hi hflush
    exact ⟨hf, hkept⟩

/-- What a run writes is kept, and the screen changes only at its drawings, after each of which it
shows the stage. -/
theorem runFrom_displays (hc : Plain c) {l : List Instruction} (hl : ∀ i ∈ l, i ∈ c.instructions)
    (index : Nat) (hs : Displays s) :
    s.document.statements <+: (runState (runFrom c s index l)).document.statements ∧
      (replay (runState (runFrom c s index l)).document.statements).images
        = (replay ((flushes c s l).getLast?.getD s).document.statements).images ∧
      ∀ f ∈ flushes c s l,
        f.document.statements <+: (runState (runFrom c s index l)).document.statements ∧
          ∀ place, (replay f.document.statements).images place = f.stage.image? place := by
  induction l generalizing s index with
  | nil => exact ⟨List.prefix_refl _, rfl, fun f hf => (by cases hf)⟩
  | cons i rest ih =>
    have hi := hl i (List.mem_cons_self ..)
    have hrest : ∀ j ∈ rest, j ∈ c.instructions := fun j hj => hl j (List.mem_cons_of_mem _ hj)
    obtain ⟨hdrawn, hkept⟩ : Displays ((flush? c s i rest).getD s) ∧
        s.document.statements <+: ((flush? c s i rest).getD s).document.statements :=
      hs.getD_flush? hc hi
    have hafter : Written Quiet ((flush? c s i rest).getD s) (Step.state (step c s i rest)) :=
      written_after_flush hc hi
    have hflush : ∀ f ∈ (flush? c s i rest).toList, (flush? c s i rest).getD s = f ∧
        ∀ place, (replay f.document.statements).images place = f.stage.image? place := by
      intro f hf
      have hsome : flush? c s i rest = some f := Option.mem_toList.mp hf
      exact ⟨by rw [hsome]; rfl, (hs.flush hc hi hsome).2.1⟩
    have hnow : (flush? c s i rest).toList.getLast? = flush? c s i rest := by
      cases flush? c s i rest <;> rfl
    unfold runFrom flushes
    cases hstep : step c s i rest with
    | error halt =>
      rw [hstep] at hafter
      refine ⟨hkept.trans hafter.isPrefix, ?_, fun f hf => ?_⟩
      · rw [List.append_nil, hnow]
        exact hafter.images_eq
      · rw [List.append_nil] at hf
        obtain ⟨rfl, himages⟩ := hflush f hf
        exact ⟨hafter.isPrefix, himages⟩
    | ok s' =>
      rw [hstep] at hafter
      obtain ⟨hkept', hlast, hflushes⟩ :=
        ih hrest (index + 1) ((quiet_after_flush hc hi hstep).displays hc hdrawn)
      refine ⟨hkept.trans (hafter.isPrefix.trans hkept'), ?_, fun f hf => ?_⟩
      · rw [hlast, List.getLast?_append, hnow]
        -- without a later drawing nothing changes after that of this instruction
        cases (flushes c s' rest).getLast? with
        | none => exact hafter.images_eq
        | some f => rfl
      · rcases List.mem_append.mp hf with hthis | hlater
        · obtain ⟨rfl, himages⟩ := hflush f hthis
          exact ⟨hafter.isPrefix.trans hkept', himages⟩
        · exact hflushes f hlater

end Rio.Screenplay

namespace Rio

open Screenplay
open Renpy (Screen replay)

/-- The states right after the drawings of the run through a compiled script. -/
def scriptFlushes (name : String) (script : List UInt8) (profile : Profile) : List State :=
  let c := scriptContext name script profile
  flushes c (start c) c.instructions

/-- The statements of a screenplay are those of its run, and then some that do not show. -/
theorem written_transpile (name : String) (script : List UInt8) (profile : Profile) :
    ∃ added, (transpile name script profile).document.statements
        = (runState (scriptRun name script profile)).document.statements ++ added ∧
      ∀ st ∈ added, Quiet st := by
  cases hrun : scriptRun name script profile with
  | ok s =>
    obtain ⟨n, hclose⟩ := s.document.statements_closeAll
    refine ⟨List.replicate n .pass, ?_, fun st hst => ?_⟩
    · rw [(transpile_of_ok hrun).2, hclose]
      rfl
    · rw [List.eq_of_mem_replicate hst]
      rfl
  | error stopped =>
    obtain ⟨index, halt⟩ := stopped
    refine ⟨[.reportIncomplete], ?_, fun st hst => ?_⟩
    · rw [(transpile_of_error hrun).2, Renpy.Document.statements_statement,
        Renpy.Document.statements_comment]
      rfl
    · rw [List.mem_singleton.mp hst]
      rfl

/-- A screenplay shows what its script does. With no hooks and no scenes to skip, the statements
up to a drawing begin the screenplay, and after them the screen shows in each place the image that
the stage has there, under its name in upper case and where it stands, or nothing if the stage has
none. What the last drawing shows is what the whole screenplay leaves on the screen. -/
theorem transpile_displays (name : String) (script : List UInt8) (profile : Profile)
    (hhooks : profile.callHooks = []) (hskip : profile.adultSkip.enabled = false) :
    (∀ f ∈ scriptFlushes name script profile,
      f.document.statements <+: (transpile name script profile).document.statements ∧
        ∀ place, (replay f.document.statements).images place = f.stage.image? place) ∧
      ∀ place, (replay (transpile name script profile).document.statements).images place
        = (scriptFlushes name script profile).getLast?.bind (·.stage.image? place) := by
  have hc : Plain (scriptContext name script profile) := by
    refine ⟨fun procedure => ?_, hskip⟩
    change profile.hooks procedure = []
    rw [Profile.hooks, hhooks]
    rfl
  obtain ⟨-, hlast, hflushes⟩ := runFrom_displays hc (fun _ hi => hi) 0 (displays_start _)
  obtain ⟨added, hadded, hquiet⟩ := written_transpile name script profile
  refine ⟨fun f hf => ?_, fun place => ?_⟩
  · obtain ⟨hkept, himages⟩ := hflushes f hf
    exact ⟨hkept.trans (hadded ▸ List.prefix_append ..), himages⟩
  · rw [hadded, replay_append, Screen.images_of_not_isDisplay hquiet]
    change (replay (runState (runFrom _ _ 0 _)).document.statements).images place = _
    rw [hlast]
    change (replay ((scriptFlushes name script profile).getLast?.getD _).document.statements).images
      place = _
    cases hf : (scriptFlushes name script profile).getLast? with
    | none => rfl
    | some f => exact (hflushes f (List.mem_of_getLast? hf)).2 place

/-- A background at (400, -300) and a foreground at (200, 150), a transition, then the foreground is
cleared and an object shown at (0, 300), and a second transition. -/
def showsAndClears : List UInt8 :=
  [0x46, 0x90, 0x01, 0xd4, 0xfe, 0, 0, 0, 0, 0, 0x62, 0, 0,
   0x48, 2, 200, 0, 150, 0, 0, 0, 0, 0, 0, 0, 0x66, 0, 0,
   0x4a, 0, 0, 0, 0,
   0x49, 2, 0, 0,
   0x73, 0, 0, 0x2c, 0x01, 0, 0, 0, 0, 0, 0x6f, 0, 0,
   0x4a, 0, 0, 0, 0]

/-- What the screen shows after its two drawings. -/
theorem images_of_showsAndClears :
    (scriptFlushes "a" showsAndClears {}).map (fun f =>
        ((replay f.document.statements).images .background,
          (replay f.document.statements).images (.foreground 2),
          (replay f.document.statements).images .object))
      = [(some ⟨"B", (mkRat (-1) 2, mkRat 1 2)⟩, some ⟨"F", (mkRat 1 4, mkRat 1 4)⟩, none),
          (some ⟨"B", (mkRat (-1) 2, mkRat 1 2)⟩, none, some ⟨"O", (0, mkRat 1 2)⟩)] := by
  have hstage : ∀ f ∈ scriptFlushes "a" showsAndClears {},
      ((replay f.document.statements).images .background,
        (replay f.document.statements).images (.foreground 2),
        (replay f.document.statements).images .object)
      = (f.stage.image? .background, f.stage.image? (.foreground 2), f.stage.image? .object) := by
    intro f hf
    obtain ⟨-, himages⟩ := (transpile_displays "a" showsAndClears {} rfl rfl).1 f hf
    rw [himages, himages, himages]
  rw [List.map_congr_left hstage]
  decide +kernel

end Rio
