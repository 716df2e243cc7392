import Rio.Proofs.Screenplay.Display
import Rio.Proofs.Screenplay.KeyFrames
import Rio.Proofs.Screenplay.Memory
import Rio.Proofs.Screenplay.SkipGuards
import Rio.Proofs.Stage.Timelines

/-!
# Animations that go on over several plays

A play does not draw if the animation goes on behind it: if the next instruction, dialogue aside,
is a key frame or another play. So all key frames of such a segment are drawn together by its last
play:

> `transpile_segment`: from a stage with nothing to be drawn, each picture that the key frames of a
> segment move is shown once, by the last play. Its block has the key frames that are for it, in
> order, each with the position that those up to it lead to, and afterwards it stands where the last
> of them ends.

Up to the drawing of the last play nothing of the segment shows or hides anything. But a segment
may come across the start of scenes that are only shown on request, and the way around them may
begin with a black screen; this is written wherever the range starts (`segment_blackScene`).

Every instruction of a segment gets through: what the key frames move is there by assumption, the
lines of a decoded script can be said, and a play inside the segment only waits. `collects_step`
says what each of them does to the stage and to the document, and `collects_init` what they do
together.
-/

namespace Rio.Renpy

/-- A statement that shows or hides something, on any layer, or that was given as text and may do
so. -/
def Statement.isShowing : Statement → Bool
  | .shot .. | .atl _ | .hide _ | .blackScene | .showSide _ | .hideSide | .showRain .. |
      .hideWeather _
  | .showMaster _ | .verbatim _ => true
  | _ => false

end Rio.Renpy

namespace Rio.Screenplay

open Renpy (Document Place ShowsOnce Statement)
open Stage (FramesOf Moved pictureIn)
open Motion (forPlace travel)

variable {c : Context} {s s' : State} {i : Instruction} {rest : List Instruction}

/-! ## Segments -/

/-- Whether an instruction belongs to an animation. -/
def isAnimation (i : Instruction) : Bool :=
  i.mnemonic.isKeyFrame || i.mnemonic.isPlay

/-- Whether an animation may go on behind an instruction that does not belong to it. -/
def isAside (i : Instruction) : Bool :=
  i.mnemonic.isDialogue || i.mnemonic == .notTerminated

/-- Key frames, plays and asides, and a play with which the animation ends: the next instruction
that is no aside does not belong to it. -/
structure Segment (init : List Instruction) (last : Instruction) (rest : List Instruction) :
    Prop where
  members : ∀ i ∈ init, isAnimation i = true ∨ isAside i = true
  play : last.mnemonic.isPlay = true
  ends : ∀ asides i after, rest = asides ++ i :: after → (∀ j ∈ asides, isAside j = true) →
    isAnimation i = false

/-- The motion of a key frame. -/
def motionOf? (i : Instruction) : Option Motion :=
  if i.mnemonic.isKeyFrame then Command.motion? i else none

/-- The motions of the key frames among some instructions. -/
def motions (l : List Instruction) : List Motion :=
  l.filterMap motionOf?

theorem motions_append (l l' : List Instruction) : motions (l ++ l') = motions l ++ motions l' :=
  List.filterMap_append

/-- No instruction is both. -/
theorem isAside_eq_false_of_isAnimation (h : isAnimation i = true) : isAside i = false := by
  unfold isAnimation at h
  unfold isAside
  generalize i.mnemonic = m at h ⊢
  cases m with
  | addAnimationKeyFrame | playAnimation | playAnimationNoskip => rfl
  | _ => cases h

/-- Asides are passed over, and the first other instruction decides. -/
theorem animationEnds_cons (i : Instruction) (rest : List Instruction) :
    animationEnds (i :: rest) = if isAside i then animationEnds rest else !isAnimation i := by
  have hpredicate : (!i.mnemonic.isDialogue && i.mnemonic != .notTerminated) = !isAside i := by
    unfold isAside
    rw [Bool.not_or]
    rfl
  unfold animationEnds
  cases haside : isAside i with
  | true => rw [List.find?_cons_of_neg (by simp [hpredicate, haside]), if_pos rfl]
  | false =>
    rw [List.find?_cons_of_pos (by simp [hpredicate, haside])]
    rfl

/-- With the last play of a segment the animation ends. -/
theorem animationEnds_of_ends (h : ∀ asides i after, rest = asides ++ i :: after →
    (∀ j ∈ asides, isAside j = true) → isAnimation i = false) : animationEnds rest = true := by
  induction rest with
  | nil => rfl
  | cons i rest ih =>
    rw [animationEnds_cons]
    by_cases haside : isAside i = true
    · rw [if_pos haside]
      apply ih
      intro asides j after heq hasides
      exact h (i :: asides) j after (by rw [heq, List.cons_append])
        (List.forall_mem_cons.mpr ⟨haside, hasides⟩)
    · rw [if_neg haside, h [] i rest rfl fun _ hj => (by cases hj)]
      rfl

/-- Before the last play it does not. -/
theorem animationEnds_append {init : List Instruction} {last : Instruction}
    (hmembers : ∀ i ∈ init, isAnimation i = true ∨ isAside i = true)
    (hlast : last.mnemonic.isPlay = true) :
    animationEnds (init ++ last :: rest) = false := by
  have hanimation : ∀ (i : Instruction) (l : List Instruction), isAnimation i = true →
      animationEnds (i :: l) = false := by
    intro i l h
    rw [animationEnds_cons, isAside_eq_false_of_isAnimation h, h]
    rfl
  induction init with
  | nil => exact hanimation last rest (by rw [isAnimation, hlast, Bool.or_true])
  | cons i init ih =>
    rw [List.cons_append]
    rcases hmembers i (List.mem_cons_self ..) with h | h
    · exact hanimation i _ h
    · rw [animationEnds_cons, if_pos h]
      exact ih fun j hj => hmembers j (List.mem_cons_of_mem _ hj)

/-! ## What is written before an instruction -/

/-- A statement that shows and hides nothing, unless scenes start that are only shown on request:
then the screen may be blackened. -/
def Unseen (c : Context) (l : List Instruction) (st : Statement) : Prop :=
  st.isShowing = true → st = .blackScene ∧
    ∃ i ∈ l, ∃ index stopScript, c.skipMark? i.addr = some (.start index true stopScript)

/-- What shows nothing is not seen. -/
theorem Unseen.of_not_isShowing {l : List Instruction} {st : Statement} (h : st.isShowing = false) :
    Unseen c l st := by
  intro hshowing
  rw [h] at hshowing
  cases hshowing

theorem Unseen.mono {l l' : List Instruction} {st : Statement} (h : Unseen c l st)
    (hsub : ∀ i ∈ l, i ∈ l') :
    Unseen c l' st := by
  intro hshowing
  obtain ⟨hblack, i, hi, hmark⟩ := h hshowing
  exact ⟨hblack, i, hsub i hi, hmark⟩

/-- All that is shown at the ends of a range of scenes is a black screen, at its start. -/
theorem unseen_placeSkipMark (s : State) (i : Instruction) :
    Written (Unseen c [i]) s (s.placeSkipMark c i.addr) := by
  cases hmark : c.skipMark? i.addr with
  | none =>
    unfold State.placeSkipMark
    rw [hmark]
    exact .none rfl
  | some mark =>
    cases mark with
    | start index insertTransition stopScript =>
      have hstatements : (s.placeSkipMark c i.addr).document.statements = s.document.statements ++
          .ifNotPersistent c.profile.adultSkip.variableName ::
            (wayAround insertTransition (s.document.depth + 1) (.skipEnd stopScript index)).map
              (·.statement) := by
        unfold Document.statements
        rw [rows_placeSkipMark_of_start hmark, List.map_append, List.map_cons]
      refine ⟨_, hstatements, ?_⟩
      intro st hst
      cases insertTransition with
      | false =>
        -- without a transition there is only the guard and its jump
        simp only [wayAround, Bool.false_eq_true, if_false, List.nil_append, List.map_cons,
          List.map_nil, List.mem_cons, List.not_mem_nil, or_false] at hst
        rcases hst with rfl | rfl <;> exact .of_not_isShowing rfl
      | true =>
        intro hshowing
        simp only [wayAround, if_true, List.cons_append, List.nil_append, List.map_cons,
          List.map_nil, List.mem_cons, List.not_mem_nil, or_false] at hst
        rcases hst with rfl | rfl | rfl | rfl
        · cases hshowing
        · exact ⟨rfl, i, List.mem_singleton_self i, index, stopScript, hmark⟩
        · cases hshowing
        · cases hshowing
    | stop index =>
      rw [placeSkipMark_of_stop hmark]
      have hclosed : Written (Unseen c [i]) s s.closeScope := .closeScope (.of_not_isShowing rfl) s
      have hlabel : Unseen c [i] (.label (.skipEnd c.name index)) := .of_not_isShowing rfl
      exact hclosed.trans (.one hlabel (by simp [State.header, State.remark]))

/-- On the way to an instruction nothing else is shown. -/
theorem unseen_arrive (s : State) (i : Instruction) (rest : List Instruction) :
    Written (Unseen c [i]) s (s.arrive c i rest) := by
  have hplaced : Written (Unseen c [i]) s
      (((s.placeSkipMark c i.addr).closeBranches i.addr).placeLabel c i.addr) :=
    (unseen_placeSkipMark s i).trans
      (.closeBranches_placeLabel (.of_not_isShowing rfl) (.of_not_isShowing rfl) _)
  unfold State.arrive
  dsimp only
  split
  · exact hplaced.trans (.none rfl)
  · exact hplaced

theorem unseen_announce_arrive (s : State) (i : Instruction) (rest : List Instruction) :
    Written (Unseen c [i]) s (announce c (s.arrive c i rest) i) :=
  (unseen_arrive s i rest).trans (.none (statements_announce ..))

/-! ## Steps of a segment -/

/-- A line of dialogue is said or continued, and a mark is only noted. -/
theorem reading_of_isAside (hmet : ∀ need ∈ i.mnemonic.needs, need.Met i) (h : isAside i = true) :
    Reading.ofInstruction i = .unhandled ∨
      Reading.ofInstruction i = .command .say ∧ i.mnemonic.isSay = true ∨
      ∃ text, Reading.ofInstruction i = .command (.extend text) := by
  unfold isAside at h
  cases hm : i.mnemonic <;> rw [hm] at h
  case textN | textC | textNIo => exact .inr (.inl ⟨by rw [Reading.ofInstruction, hm], rfl⟩)
  case textExtend =>
    rw [hm] at hmet
    obtain ⟨⟨text, htext⟩, -⟩ := List.forall_mem_cons.mp hmet
    refine .inr (.inr ⟨text, ?_⟩)
    rw [Reading.ofInstruction, hm]
    simp [htext, Reading.ofOption]
  case notTerminated => exact .inl (by rw [Reading.ofInstruction, hm])
  all_goals cases h

/-- What instructions of a segment do: the stage takes their motions, and nothing is shown. -/
structure Collects (c : Context) (l : List Instruction) (s s' : State) : Prop where
  moved : Moved (motions l) s.stage s'.stage
  written : Written (Unseen c l) s s'

/-- The motions of two parts are taken one after the other. -/
theorem Collects.trans {l l' : List Instruction} {t : State} (h : Collects c l s t)
    (h' : Collects c l' t s') :
    Collects c (l ++ l') s s' where
  moved := by
    rw [motions_append]
    exact h.moved.trans h'.moved
  written :=
    (h.written.mono fun _ hst => hst.mono fun _ => List.mem_append_left _).trans
      (h'.written.mono fun _ hst => hst.mono fun _ => List.mem_append_right _)

/-- An instruction that is no key frame leaves all places as they are. -/
theorem Collects.of_stage (hframe : i.mnemonic.isKeyFrame = false) {inSegment : Bool}
    (hstage : s'.stage = { s.stage with inSegment }) (hwritten : Written (Unseen c [i]) s s') :
    Collects c [i] s s' where
  moved := by
    have hnone : motions [i] = [] := by simp [motions, motionOf?, hframe]
    rw [hnone, hstage]
    exact .inSegment s.stage inSegment
  written := hwritten

/-- A line is said, or waits for a menu. -/
theorem say_acts {P : Statement → Prop} (hsay : ∀ speech, P (.say speech)) (h : Sayable i)
    (s : State) :
    ∃ s', say c s i rest = .ok s' ∧ Acts c P s s' := by
  unfold say
  split
  · exact ⟨_, rfl, .single (.remark _)⟩
  · cases hspeak : speak c s i with
    | error halt => exact absurd hspeak (speak_ne_error h halt)
    | ok s' => exact ⟨s', rfl, speak_acts hsay hspeak⟩

/-- Dialogue leaves the stage alone and shows no picture. -/
theorem collects_aside (hmet : ∀ need ∈ i.mnemonic.needs, need.Met i) (haside : isAside i = true)
    (s : State) (rest : List Instruction) :
    ∃ s', step c s i rest = .ok s' ∧ Collects c [i] s s' := by
  have hframe : i.mnemonic.isKeyFrame = false := by
    rw [Bool.eq_false_iff]
    intro hframe
    have hnot :=
      isAside_eq_false_of_isAnimation (i := i) (by rw [isAnimation, hframe, Bool.true_or])
    rw [haside] at hnot
    cases hnot
  -- what is said shows nothing and leaves the stage as it is
  have hcommand : ∀ {command : Command}, Reading.ofInstruction i = .command command →
      command.isScenery = false →
      (∃ s', execute c i rest (announce c (s.arrive c i rest) i) command = .ok s' ∧
        Acts c (Unseen c [i]) (announce c (s.arrive c i rest) i) s') →
      ∃ s', step c s i rest = .ok s' ∧ Collects c [i] s s' := by
    rintro command hread hscenery ⟨s', hexec, hacts⟩
    have hstage : s'.stage = s.stage :=
      (stage_execute hscenery hexec).trans (stage_announce_arrive s i rest)
    refine ⟨s', (step_of_reading hread s rest).trans hexec, .of_stage hframe hstage ?_⟩
    exact (unseen_announce_arrive s i rest).trans hacts.written
  rcases reading_of_isAside hmet haside with hread | ⟨hread, hsay⟩ | ⟨text, hread⟩
  · have hend : i.mnemonic ≠ .endOfStream := by
      intro hend
      rw [isAside, hend] at haside
      cases haside
    have hstage : (s.arrive c i rest).stage = s.stage :=
      congrArg Memory.stage (memory_arrive s i rest)
    rw [step_of_ne_end hend, dispatch, hread]
    refine ⟨_, rfl, .of_stage hframe hstage ?_⟩
    exact (unseen_arrive s i rest).trans (.none (Document.statements_comment _ _))
  · exact hcommand hread rfl
      (say_acts (fun _ => .of_not_isShowing rfl) ⟨hsay, utterance?_isSome hmet hsay⟩ _)
  · exact hcommand hread rfl ⟨_, rfl, .single (.emit (.of_not_isShowing rfl) rfl)⟩

theorem ofInstruction_of_isPlay (h : i.mnemonic.isPlay = true) :
    Reading.ofInstruction i = .command .play := by
  cases hm : i.mnemonic with
  | playAnimation | playAnimationNoskip => rw [Reading.ofInstruction, hm]
  | _ =>
    rw [hm] at h
    cases h

/-- A play that the animation goes on behind waits. -/
theorem collects_play (hplay : i.mnemonic.isPlay = true) (hends : animationEnds rest = false)
    (s : State) :
    ∃ s', step c s i rest = .ok s' ∧ Collects c [i] s s' := by
  have hframe : i.mnemonic.isKeyFrame = false := by
    generalize i.mnemonic = m at hplay ⊢
    cases m with
    | addAnimationKeyFrame => cases hplay
    | _ => rfl
  have hstep : step c s i rest = .ok (play c (announce c (s.arrive c i rest) i) rest) :=
    step_of_reading (ofInstruction_of_isPlay hplay) s rest
  rw [play, if_neg (by simp [hends])] at hstep
  have hstage := congrArg (fun g : Stage => { g with inSegment := true })
      (stage_announce_arrive (c := c) s i rest)
  refine ⟨_, hstep, .of_stage hframe hstage ?_⟩
  exact (unseen_announce_arrive s i rest).trans (.none (Document.statements_comment _ _))

/-! ### Key frames -/

/-- A motion of the background adds a frame to its picture. -/
theorem moveBackground_eq {kind : Stage.FrameKind} {m : Motion} {p : Stage.Picture}
    (hp : s.stage.background = some p) :
    moveBackground s kind m =
      { s with stage := { s.stage with
          background := some (p.addFrame kind m.dx m.dy m.ms m.fade)
          backgroundRedraw := true } } := by
  rw [moveBackground, hp]

/-- A motion of a foreground adds a frame to the picture in its place. -/
theorem moveForeground_eq {addr index : Nat} {kind : Stage.FrameKind} {m : Motion}
    {p : Stage.Picture} {pending : Bool} {signed : Int} (hsigned : signed = index)
    (hp : s.stage.foreground? index = some ⟨.picture p, pending⟩) :
    moveForeground s addr kind signed m =
      .ok { s with stage :=
        { s.stage.setForeground index
            ⟨.picture (p.addFrame kind m.dx m.dy m.ms m.fade), pending⟩ with
          foregroundRedraw := true } } := by
  subst hsigned
  rw [moveForeground, if_pos (Int.natCast_nonneg index), Int.toNat_natCast, hp]
  rfl

/-- A motion for a picture that is there moves it. -/
theorem moved_addMotion {m : Motion} {place : Place} (hm : m.place? = some place)
    {p : Stage.Picture} (hp : pictureIn (s.stage.slot? place) = some p) (addr : Nat) :
    ∃ s', addMotion s addr m = .ok s' ∧ Moved [m] s.stage s'.stage ∧ s'.document = s.document := by
  have hplace := hm
  unfold Motion.place? at hplace
  unfold addMotion
  -- the place of a motion and the move it makes are read from the same target, case by case
  split at hplace
  · next htarget =>
    obtain rfl := Option.some.inj hplace
    have hbackground := Stage.background_of_pictureIn hp
    have hmoved := Moved.background hbackground hm
    rcases htarget with htarget | htarget
    · have hkind : m.kind = .linear := by simp [Motion.kind, htarget]
      rw [if_pos (by simp [htarget]), moveBackground_eq hbackground, ← hkind]
      exact ⟨_, rfl, hmoved, rfl⟩
    · have hkind : m.kind = .shake := by simp [Motion.kind, htarget]
      rw [if_neg (by simp [htarget]), if_pos (by simp [htarget]),
        moveBackground_eq hbackground, ← hkind]
      exact ⟨_, rfl, hmoved, rfl⟩
  · next hother =>
    have hne : (m.target == 0) = false ∧ (m.target == 100) = false := by
      simpa [not_or] using hother
    rw [hne.1, hne.2, if_neg (by simp), if_neg (by simp)]
    split at hplace
    · next htarget =>
      obtain rfl := Option.some.inj hplace
      obtain ⟨pending, hslot⟩ := Stage.exists_of_pictureIn hp
      have hkind : m.kind = .linear := if_pos (by omega)
      rw [if_neg (by omega), moveForeground_eq (by omega) hslot, ← hkind]
      exact ⟨_, rfl, .foreground hslot hm, rfl⟩
    · split at hplace
      · next htarget =>
        obtain rfl := Option.some.inj hplace
        obtain ⟨pending, hslot⟩ := Stage.exists_of_pictureIn hp
        have hkind : m.kind = .shake := if_neg (by omega)
        rw [if_pos (by omega), moveForeground_eq (by omega) hslot, ← hkind]
        exact ⟨_, rfl, .foreground hslot hm, rfl⟩
      · cases hplace

/-- A key frame gives its motion to the picture that is there for it. -/
theorem collects_keyFrame (hdetect : c.profile.detectAnimationSkip = false)
    (hmet : ∀ need ∈ i.mnemonic.needs, need.Met i) (hframe : i.mnemonic.isKeyFrame = true)
    (htarget : s.stage.HasTargets (motions [i]))
    (rest : List Instruction) : ∃ s', step c s i rest = .ok s' ∧ Collects c [i] s s' := by
  have hread : Reading.ofInstruction i = .command (.keyFrame (Command.motion? i)) := by
    cases hm : i.mnemonic with
    | addAnimationKeyFrame => rw [Reading.ofInstruction, hm]
    | _ =>
      rw [hm] at hframe
      cases hframe
  obtain ⟨m, hm⟩ := Option.isSome_iff_exists.mp (isSome_of_keyFrame hmet hread)
  have hmotions : motions [i] = [m] := by simp [motions, motionOf?, hframe, hm]
  obtain ⟨place, p, hplace, hp⟩ := htarget m (by rw [hmotions]; exact List.mem_singleton_self m)
  have hstage := stage_announce_arrive (c := c) s i rest
  rw [← hstage] at hp
  obtain ⟨s', hadd, hmoved, hdocument⟩ := moved_addMotion hplace hp i.addr
  refine ⟨s', ?_, ?_, ?_⟩
  · rw [step_of_reading hread, hm]
    show keyFrame c _ i (some m) = _
    rw [keyFrame, if_neg (by simp [hdetect])]
    exact hadd
  · rw [hmotions, ← hstage]
    exact hmoved
  · exact (unseen_announce_arrive s i rest).trans (.none (congrArg Document.statements hdocument))

/-! ## Runs through a segment -/

section

variable {init : List Instruction} {last : Instruction}
  (hdetect : c.profile.detectAnimationSkip = false)
  (hmet : ∀ i ∈ c.instructions, ∀ need ∈ i.mnemonic.needs, need.Met i)

include hdetect hmet

/-- An instruction of a segment is a key frame, a play with which it does not end, or an aside. -/
theorem collects_step (hi : i ∈ c.instructions) (hmember : isAnimation i = true ∨ isAside i = true)
    (hends : i.mnemonic.isPlay = true → animationEnds rest = false)
    (htarget : s.stage.HasTargets (motions [i])) :
    ∃ s', step c s i rest = .ok s' ∧ Collects c [i] s s' := by
  rcases hmember with hanimation | haside
  · rcases Bool.or_eq_true_iff.mp hanimation with hframe | hplay
    · exact collects_keyFrame hdetect (hmet i hi) hframe htarget rest
    · exact collects_play hplay (hends hplay) s
  · exact collects_aside (hmet i hi) haside s rest

/-- Up to its last play a segment gets through, and its motions collect. -/
theorem collects_init (hmem : ∀ i ∈ init, i ∈ c.instructions)
    (hmembers : ∀ i ∈ init, isAnimation i = true ∨ isAside i = true)
    (hlast : last.mnemonic.isPlay = true) (htargets : s.stage.HasTargets (motions init)) :
    ∃ t, Runs c (init ++ last :: rest) s (last :: rest) t ∧ Collects c init s t := by
  induction init generalizing s with
  | nil => exact ⟨s, .here, .inSegment s.stage s.stage.inSegment, .none rfl⟩
  | cons i init ih =>
    have hcons : motions (i :: init) = motions [i] ++ motions init := motions_append [i] init
    rw [hcons] at htargets
    have hlater : ∀ j ∈ init, isAnimation j = true ∨ isAside j = true :=
      fun j hj => hmembers j (List.mem_cons_of_mem _ hj)
    obtain ⟨s', hstep, hcollects⟩ : ∃ s', step c s i (init ++ last :: rest) = .ok s' ∧
        Collects c [i] s s' :=
      collects_step hdetect hmet (hmem i (List.mem_cons_self ..))
        (hmembers i (List.mem_cons_self ..))
        (fun _ => animationEnds_append hlater hlast)
          fun m hm => htargets m (List.mem_append_left _ hm)
    obtain ⟨t, hruns, hcollects'⟩ := ih (fun j hj => hmem j (List.mem_cons_of_mem _ hj)) hlater
      (hcollects.moved.hasTargets fun m hm => htargets m (List.mem_append_right _ hm))
    exact ⟨t, Runs.trans (.step .here hstep) hruns, hcollects.trans hcollects'⟩

end

/-- The last play draws the stage. -/
theorem step_lastPlay (hplay : i.mnemonic.isPlay = true) (hends : animationEnds rest = true)
    (s : State) :
    ∃ t, step c s i rest = .ok (draw c t).2 ∧ Written (Unseen c [i]) s t ∧
      t.stage = { s.stage with inSegment := false } := by
  have hstep : step c s i rest = .ok (play c (announce c (s.arrive c i rest) i) rest) :=
    step_of_reading (ofInstruction_of_isPlay hplay) s rest
  rw [play, if_pos hends] at hstep
  refine ⟨_, hstep, (unseen_announce_arrive s i rest).trans (.none rfl), ?_⟩
  exact congrArg (fun g : Stage => { g with inSegment := false }) (stage_announce_arrive s i rest)

/-- What was written stays. -/
theorem Runs.written {l : List Instruction} {t : State} (hl : ∀ i ∈ l, i ∈ c.instructions)
    (h : Runs c l s rest t) :
    Written (fun _ => True) s t := by
  induction h with
  | here => exact .none rfl
  | step hruns hstep ih =>
    exact ih.trans (step_acts (allowed_all c) (hl _ (Runs.mem hruns)) hstep).written

/-! ## Pictures at rest -/

/-- No act leaves a clean picture in the middle of a motion. -/
theorem Act.rested {P : Statement → Prop} (h : Act c P s s') (hs : s.stage.Rested) :
    s'.stage.Rested := by
  cases h with
  | stage hchange => exact hs.change hchange
  | draw _ =>
    rw [stage_draw]
    exact hs.draw c.drawing
  | standIn _ => exact hs.standIn _ _
  | place _ _ =>
    unfold State.placeLabel
    split <;> exact hs
  | _ => exact hs

/-- By induction on the run. -/
theorem rested_of_reached (h : Reached c rest s) : s.stage.Rested := by
  induction h with
  | here => exact Stage.rested_empty
  | @step i rest t t' hruns hstep ih =>
    exact (step_acts (allowed_all c) (Runs.mem hruns) hstep).preserves (fun hact => hact.rested) ih

end Rio.Screenplay

namespace Rio

open Renpy (Place ShowsOnce)
open Stage (FramesOf Moved pictureIn)
open Screenplay
open Screenplay.Motion (forPlace travel)

/-- The key frames of a segment are drawn by its last play. Up to there nothing is shown or
hidden, but for the black screen where scenes start that are only shown on request. The last play
shows each picture that is moved once. Its block has its key frames in order, each ending where
those up to it lead, and afterwards it stands where they end. -/
theorem transpile_segment (name : String) (script : List UInt8) (profile : Profile)
    (hdetect : profile.detectAnimationSkip = false) {init rest : List Instruction}
    {last : Instruction} {s : State}
    (hs : Reached (scriptContext name script profile) (init ++ last :: rest) s)
    (hclean : s.stage.isClean = true) (hsegment : Segment init last rest)
    (htargets : s.stage.HasTargets (motions init)) :
    let c := scriptContext name script profile
    ∃ s' written drawn after, Reached c rest s' ∧
      s'.document.statements = s.document.statements ++ written ++ drawn ∧
      (transpile name script profile).document.statements = s'.document.statements ++ after ∧
      (∀ st ∈ written, st.isShowing = true → st = .blackScene ∧
        ∃ i ∈ init ++ [last], ∃ index stopScript,
          c.skipMark? i.addr = some (.start index true stopScript)) ∧
      (∀ st ∈ drawn, ∀ place, st.place? = some place →
        forPlace place (motions init) ≠ [] ∨ forPlace .background (motions init) ≠ []) ∧
      ∀ place p, pictureIn (s.stage.slot? place) = some p → forPlace place (motions init) ≠ [] →
        ∃ frames shot p', FramesOf p.base p.alpha (forPlace place (motions init)) frames ∧
          ShowsOnce place shot
            (p.atl profile.useAtlMatrixcolor ++ frames.flatMap p.frameLines) drawn ∧
          shot.image = Unicode.toUpper p.name ∧
          pictureIn (s'.stage.slot? place) = some p' ∧ p'.frames = [] ∧
          p'.base = (p.base.1 + (travel (forPlace place (motions init))).1,
            p.base.2 + (travel (forPlace place (motions init))).2) := by
  intro c
  have hmet := Bytecode.decode_meets profile.version script
  have hmem : ∀ i ∈ init, i ∈ c.instructions := by
    intro i hi
    obtain ⟨before, heq⟩ := Runs.exists_append hs
    rw [heq]
    exact List.mem_append_right _ (List.mem_append_left _ hi)
  -- up to the last play the motions are collected, and nothing is shown
  obtain ⟨t, hruns, hcollects⟩ : ∃ t, Runs c (init ++ last :: rest) s (last :: rest) t ∧
      Collects c init s t :=
    collects_init hdetect hmet hmem hsegment.members hsegment.play htargets
  obtain ⟨u, hstep, hwritten, hstage⟩ :=
    step_lastPlay (c := c) hsegment.play (animationEnds_of_ends hsegment.ends) t
  have hlast : Reached c (last :: rest) t := Runs.trans hs hruns
  -- the last play ends the segment and only then draws
  have hmoved : Moved (motions init) s.stage u.stage := by
    have htrans := hcollects.moved.trans (.inSegment t.stage false)
    rw [List.append_nil, ← hstage] at htrans
    exact htrans
  obtain ⟨written, heq, hunseen⟩ : Written (Unseen c (init ++ [last])) s u :=
    (hcollects.written.mono fun _ hst => hst.mono fun _ => List.mem_append_left _).trans
      (hwritten.mono fun _ hst => hst.mono fun _ => List.mem_append_right _)
  obtain ⟨after, hrows⟩ := rows_transpile_of_reached hlast
  change (transpile name script profile).document.rows
    = (outcome (step c t last rest)).document.rows ++ after at hrows
  rw [hstep] at hrows
  refine ⟨(draw c u).2, written, (u.stage.draw c.drawing).2.1.flatMap Stage.Cue.statements,
    after.map (·.statement), .step hlast hstep, ?_, ?_, hunseen, ?_, ?_⟩
  · rw [statements_draw, heq]
  · unfold Renpy.Document.statements
    rw [hrows, List.map_append]
    rfl
  · intro st hst place hplace
    obtain ⟨cue, hcue, hst⟩ := List.mem_flatMap.mp hst
    exact hmoved.forPlace_ne_nil_of_mem_draw hclean hcue
      (Stage.Cue.place?_of_mem_statements hst hplace)
  · intro place p hp hne
    obtain ⟨frames, shot, hof, hshot, himage, hcues, p', hp', hframes, hbase⟩ :=
      hmoved.exists_draw hclean (rested_of_reached hs) hp hne c.drawing
    refine ⟨frames, shot, p', hof, hcues.showsOnce hshot, himage, ?_, hframes, hbase⟩
    rw [stage_draw]
    exact hp'

/-- A background and a foreground are shown; a segment moves the foreground, goes on behind a
line, moves the foreground by a shake and then the background. -/
def walk : List UInt8 :=
  [0x46, 0, 0, 0, 0, 0, 0, 0, 0, 0, 0x62, 0,
    0x48, 0, 0, 0, 0, 0, 0, 0, 0, 0, 0, 0, 0x78, 0,
    0x4a, 0, 0, 0, 0,
    0x4b, 1, 0x90, 1, 0, 0, 0xf4, 1, 0, 0, 0, 0, 0,
    0x4c, 0, 0,
    0x41, 0, 0, 0, 0x61, 0,
    0x4b, 0x65, 0, 0, 0x3c, 0, 0xf4, 1, 0, 0, 0, 0, 0,
    0x4b, 0, 5, 0, 7, 0, 0xf4, 1, 0, 0, 0, 0, 0,
    0x4c, 0, 0,
    0x0a, 0]

/-- Scenes that are only shown on request start with the shake, by way of a black screen. -/
def walkProfile : Profile :=
  { includeListing := false
    detectAnimationSkip := false
    adultSkip := { enabled := true, ranges := [⟨⟨"a", 53, true⟩, ⟨"a", 82, false⟩⟩] } }

/-- The segment of the walk up to its last play. -/
def walkInit : List Instruction :=
  ((Bytecode.decode .standard true walk).drop 3).take 5

def walkLast : Instruction :=
  ⟨79, 3, some 0x4c, .playAnimation, [.int 0]⟩

def walkRest : List Instruction :=
  (Bytecode.decode .standard true walk).drop 9

theorem drop_walk :
    (Bytecode.decode .standard true walk).drop 3 = walkInit ++ walkLast :: walkRest := by
  decide +kernel

/-- Key frames with an aside among them, and the play that ends them. -/
theorem segment_walk : Segment walkInit walkLast walkRest := by
  have hrest : ∀ i ∈ walkRest, isAnimation i = false := by decide +kernel
  refine ⟨by decide +kernel, rfl, fun asides i after heq _ => hrest i ?_⟩
  rw [heq]
  exact List.mem_append_right _ (List.mem_cons_self ..)

theorem motions_walkInit :
    motions walkInit = [⟨1, 400, 0, 500, 0⟩, ⟨101, 0, 60, 500, 0⟩, ⟨0, 5, 7, 500, 0⟩] := by
  decide +kernel

/-- The walk has no jumps, so it is one block. -/
theorem scriptContext_walk :
    scriptContext "a" walk walkProfile
      = ⟨walkProfile, Unicode.toUpper "a", Bytecode.decode .standard true walk,
          ⟨[⟨0, some 84, .leave, none, none, [], []⟩]⟩⟩ :=
  congrArg (Context.mk walkProfile _ _)
    (BlockGraph.build_eq_of_perm (by decide +kernel) (by decide))

/-- The state after some instructions of the walk. -/
def walkState (n : Nat) : State :=
  let c := scriptContext "a" walk walkProfile
  stateAt c n c.instructions (start c)

theorem reached_walkState (n : Nat) :
    Reached (scriptContext "a" walk walkProfile) ((Bytecode.decode .standard true walk).drop n)
      (walkState n) := by
  have hok :
      (runFrom (scriptContext "a" walk walkProfile) (start (scriptContext "a" walk walkProfile)) 0
        (scriptContext "a" walk walkProfile).instructions).isOk = true := by
    rw [scriptContext_walk]
    decide +kernel
  exact runs_stateAt_of_isOk hok n

/-- Before the segment the two pictures stand at the corner and have been drawn. -/
theorem walkState_clean : (walkState 3).stage.isClean = true ∧
    (pictureIn ((walkState 3).stage.slot? .background)).any (·.base == (0, 0)) = true ∧
    (pictureIn ((walkState 3).stage.slot? (.foreground 0))).any (·.base == (0, 0)) = true := by
  unfold walkState
  rw [scriptContext_walk]
  decide +kernel

/-- Each motion of the walk has its picture on the stage. -/
theorem hasTargets_walk : (walkState 3).stage.HasTargets (motions walkInit) := by
  obtain ⟨-, hbackground, hforeground⟩ := walkState_clean
  obtain ⟨p, hp, -⟩ := (Option.any_eq_true _ _).mp hbackground
  obtain ⟨q, hq, -⟩ := (Option.any_eq_true _ _).mp hforeground
  rw [motions_walkInit]
  intro m hm
  rcases List.mem_cons.mp hm with rfl | hm
  · exact ⟨.foreground 0, q, rfl, hq⟩
  · rcases List.mem_cons.mp hm with rfl | hm
    · exact ⟨.foreground 0, q, rfl, hq⟩
    · rw [List.mem_singleton.mp hm]
      exact ⟨.background, p, rfl, hp⟩

/-- The last play of the walk shows the foreground once, with the motion and the shake, and leaves
it where they lead to. -/
theorem segment_of_walk :
    let c := scriptContext "a" walk walkProfile
    ∃ s s' written drawn p p' frames shot, Reached c (walkInit ++ walkLast :: walkRest) s ∧
      Reached c walkRest s' ∧
      s'.document.statements = s.document.statements ++ written ++ drawn ∧
      pictureIn (s.stage.slot? (.foreground 0)) = some p ∧ p.base = (0, 0) ∧
      FramesOf p.base p.alpha [⟨1, 400, 0, 500, 0⟩, ⟨101, 0, 60, 500, 0⟩] frames ∧
      ShowsOnce (.foreground 0) shot (p.atl walkProfile.useAtlMatrixcolor
        ++ frames.flatMap p.frameLines) drawn ∧
      pictureIn (s'.stage.slot? (.foreground 0)) = some p' ∧ p'.base = (400, 60) := by
  intro c
  have hreached := reached_walkState 3
  rw [drop_walk] at hreached
  obtain ⟨hclean, -, hforeground⟩ := walkState_clean
  obtain ⟨p, hp, hbase⟩ := (Option.any_eq_true _ _).mp hforeground
  have hmotions : forPlace (.foreground 0) (motions walkInit)
      = [⟨1, 400, 0, 500, 0⟩, ⟨101, 0, 60, 500, 0⟩] := by
    rw [motions_walkInit]
    decide
  obtain ⟨s', written, drawn, -, hs', hstatements, -, -, -, hshown⟩ :=
    transpile_segment "a" walk walkProfile rfl hreached hclean segment_walk hasTargets_walk
  obtain ⟨frames, shot, p', hof, hshows, -, hp', -, hbase'⟩ :=
    hshown (.foreground 0) p hp (by rw [hmotions]; exact List.cons_ne_nil _ _)
  rw [hmotions] at hof hbase'
  refine ⟨walkState 3, s', written, drawn, p, p', frames, shot, hreached, hs', hstatements, hp,
    beq_iff_eq.mp hbase, hof, hshows, hp', ?_⟩
  rw [hbase', beq_iff_eq.mp hbase]
  rfl

/-- Before the last play of the walk the screen is blackened. -/
theorem segment_blackScene :
    let c := scriptContext "a" walk walkProfile
    walkProfile.detectAnimationSkip = false ∧ Segment walkInit walkLast walkRest ∧
      ∃ s t written, Reached c (walkInit ++ walkLast :: walkRest) s ∧ s.stage.isClean = true ∧
        s.stage.HasTargets (motions walkInit) ∧
        Runs c (walkInit ++ walkLast :: walkRest) s (walkLast :: walkRest) t ∧
        t.document.statements = s.document.statements ++ written ∧ .blackScene ∈ written := by
  intro c
  have hreached := reached_walkState 3
  rw [drop_walk] at hreached
  have hok : (runFrom c (walkState 3) 0 (walkInit ++ walkLast :: walkRest)).isOk = true := by
    unfold walkState
    show (runFrom (scriptContext "a" walk walkProfile) _ 0 _).isOk = true
    rw [scriptContext_walk]
    decide +kernel
  have hruns := runs_stateAt_of_isOk hok 5
  have hdrop : (walkInit ++ walkLast :: walkRest).drop 5 = walkLast :: walkRest :=
    List.drop_left' (by decide +kernel)
  rw [hdrop] at hruns
  have hmem : ∀ i ∈ walkInit ++ walkLast :: walkRest, i ∈ c.instructions := by
    intro i hi
    rw [← drop_walk] at hi
    exact List.mem_of_mem_drop hi
  obtain ⟨written, hstatements, -⟩ := Runs.written hmem hruns
  refine ⟨rfl, segment_walk, walkState 3, _, written, hreached, walkState_clean.1, hasTargets_walk,
    hruns, hstatements, ?_⟩
  -- it stands behind the line of dialogue, under the guard of the scenes
  have hblack :
      ((stateAt c 5 (walkInit ++ walkLast :: walkRest) (walkState 3)).document.statements.drop
        (walkState 3).document.statements.length).any (fun st => st matches .blackScene)
          = true := by
    unfold walkState
    show ((stateAt (scriptContext "a" walk walkProfile) _ _ _).document.statements.drop _).any _
        = true
    rw [scriptContext_walk]
    decide +kernel
  rw [hstatements, List.drop_left] at hblack
  obtain ⟨st, hst, hmatches⟩ := List.any_eq_true.mp hblack
  cases st with
  | blackScene => exact hst
  | _ => cases hmatches

end Rio
