import Rio.Proofs.Screenplay.FlagUse

/-!
# Where comments come from

A generated script has comments that the run itself makes (the first line, listings, the ends of
ranges that may be skipped) and comments that a command makes. `Command.notes` is the table of the
latter, and `Noted` says that only comments with some property were appended:

> `noted_execute`: a command makes the comments of its row only, and a doubt about an animation only
> where `animationDoubt?` has it;
> `noted_step`: so does a step, its announcement aside;
> `remarks_of_outcome`: so every comment of a script has its source, also where the run halts.
-/

namespace Rio.Renpy.Document

/-- The comments of a document, in order. -/
def remarks (d : Document) : List Remark :=
  d.entries.toList.filterMap fun e =>
    match e.content with
    | .comment r => some r
    | .statement _ => none

/-- The remarks of a document are what its comment lines hold. -/
theorem mem_remarks_iff {d : Document} {r : Remark} :
    r ∈ d.remarks ↔ ∃ e ∈ d.entries.toList, e.content = .comment r := by
  unfold remarks
  rw [List.mem_filterMap]
  refine exists_congr fun e => and_congr_right fun _ => ?_
  cases e.content with
  | statement st => simp
  | comment r' => simp

@[simp] theorem remarks_statement (d : Document) (st : Statement) :
    (d.statement st).remarks = d.remarks := by
  simp [remarks]

@[simp] theorem remarks_comment (d : Document) (r : Remark) :
    (d.comment r).remarks = d.remarks ++ [r] := by
  simp [remarks]

@[simp] theorem remarks_header (d : Document) (st : Statement) :
    (d.header st).remarks = d.remarks :=
  d.remarks_statement st

/-- The `pass` of an empty block is no comment. -/
@[simp] theorem remarks_closeScope (d : Document) : d.closeScope.remarks = d.remarks := by
  unfold closeScope
  split
  · rfl
  · rfl
  · exact d.remarks_statement .pass

@[simp] theorem remarks_closeAll (d : Document) : d.closeAll.remarks = d.remarks := by
  unfold closeAll
  generalize d.scopes = scopes
  induction scopes generalizing d with
  | nil => rfl
  | cons _ scopes ih => rw [List.foldl_cons, ih, remarks_closeScope]

/-- A shot is made of statements, with or without a block of transforms. -/
@[simp] theorem remarks_shot (d : Document) (s : Shot) (lines : List AtlLine) :
    (d.shot s lines).remarks = d.remarks := by
  have hlines : ∀ e : Document,
      (lines.foldl (fun d line => d.statement (.atl line)) e).remarks = e.remarks := by
    induction lines with
    | nil => exact fun e => rfl
    | cons line lines ih =>
      intro e
      rw [List.foldl_cons, ih, remarks_statement]
  unfold shot
  split
  · exact d.remarks_statement _
  · rw [remarks_closeScope, hlines, remarks_header]

/-- So is all that is drawn. -/
@[simp] theorem remarks_cues (cues : List Stage.Cue) (d : Document) :
    (cues.foldl cue d).remarks = d.remarks := by
  induction cues generalizing d with
  | nil => rfl
  | cons cue cues ih =>
    rw [List.foldl_cons, ih]
    cases cue with
    | draw shot lines => exact d.remarks_shot shot lines
    | hide tag => exact d.remarks_statement _

end Rio.Renpy.Document

namespace Rio.Screenplay

open Renpy (AnimationDoubt Document Remark Statement)

variable {c : Context} {s s' t : State} {i : Instruction} {rest : List Instruction}
  {command : Command}
  {Q : Remark → Prop}

/-- Comments with a property were appended. -/
def Noted (Q : Remark → Prop) (s s' : State) : Prop :=
  ∃ added, s'.document.remarks = s.document.remarks ++ added ∧ ∀ r ∈ added, Q r

namespace Noted

/-- Where no comment is added nothing is asked of any. -/
theorem none (h : s'.document.remarks = s.document.remarks) : Noted Q s s' :=
  ⟨[], by rw [h, List.append_nil], fun _ hr => (by cases hr)⟩

theorem one {r : Remark} (hr : Q r) (h : s'.document.remarks = s.document.remarks ++ [r]) :
    Noted Q s s' :=
  ⟨[r], h, fun _ hmem => List.mem_singleton.mp hmem ▸ hr⟩

theorem mono {R : Remark → Prop} (h : Noted Q s s') (himp : ∀ r, Q r → R r) : Noted R s s' := by
  obtain ⟨added, heq, hQ⟩ := h
  exact ⟨added, heq, fun r hr => himp r (hQ r hr)⟩

/-- Two changes add the comments of the first one, then those of the second. -/
theorem trans (h : Noted Q s t) (h' : Noted Q t s') : Noted Q s s' := by
  obtain ⟨added, heq, hQ⟩ := h
  obtain ⟨added', heq', hQ'⟩ := h'
  refine ⟨added ++ added', by rw [heq', heq, List.append_assoc], fun r hr => ?_⟩
  exact (List.mem_append.mp hr).elim (hQ r) (hQ' r)

/-- What holds of the comments of each round holds of those of the loop. -/
theorem foldl {α : Type} {f : State → α → State} (hf : ∀ t x, Noted Q t (f t x)) (xs : List α)
    (s : State) :
    Noted Q s (xs.foldl f s) := by
  induction xs generalizing s with
  | nil => exact none rfl
  | cons x xs ih => exact (hf s x).trans (ih (f s x))

theorem emit (s : State) (st : Statement) : Noted Q s (s.emit st) :=
  none (s.document.remarks_statement st)

theorem header (s : State) (st : Statement) : Noted Q s (s.header st) :=
  none (s.document.remarks_header st)

theorem closeScope (s : State) : Noted Q s s.closeScope :=
  none s.document.remarks_closeScope

theorem remark (s : State) {r : Remark} (hr : Q r) : Noted Q s (s.remark r) :=
  one hr (s.document.remarks_comment r)

/-- Drawing adds statements only. -/
theorem draw (c : Context) (s : State) : Noted Q s (draw c s).2 := by
  rw [draw_eq]
  exact none (Document.remarks_cues ..)

end Noted

/-- The comments that a command may make. -/
def Command.notes : Command → Remark → Bool
  | .branch _, .unmappedFlag _ | .branch _, .hintedBranch .. | .branch _, .inaccessibleBranch _ =>
    true
  | .menu _, .unmappedFlag _ | .menu _, .hintedChoice _ | .menu _, .inaccessibleChoice _
  | .menu _, .unknownTextSize _ => true
  | .revealDuration _, .revealDuration _ => true
  | .revealFromFlag _, .revealFromFlag _ => true
  | .assign .., .hintedSource .. | .assign .., .unmappedFlag _ | .assign .., .hintedAssign ..
  | .assign .., .droppedAssign .. => true
  | .random .., .unmappedFlag _ | .random .., .hintedAssign .. => true
  | .say, .saidUnderMenu | .say, .unknownTextSize _ => true
  | .sleep _, .pauseInlined => true
  | .playSound .., .registerChannel _ | .stopSound .., .registerChannel _ => true
  | .playNowhere, .negativeChannel => true
  | .viewport .., .viewportWithoutBackground => true
  | .foreground .., .replacementInhibited => true
  | .clearForeground _, .clearForeground _ => true
  | .clearObject, .clearObject => true
  | .mask _, .maskSet _ => true
  | .weather .., .unknownWeather _ => true
  | .screenEffect .., .unknownScreenEffect _ => true
  | .transition .., .needsGfxNext _ | .transition .., .unknownTransition .. => true
  | .keyFrame _, .notAnimated _ | .keyFrame _, .missingBackground
  | .keyFrame _, .clearedForeground _ => true
  | .play, .playDelayed => true
  | _, _ => false

/-! ## Flags and dialogue -/

/-- The use of a flag is remarked on if the flag is hinted, or if no bank has it. -/
theorem noted_access (s : State) {flag : Int} {found : FlagAccess} {hint : String → Remark}
    (hhint : ∀ reference, found = .hinted reference → Q (hint reference))
    (hunmapped : Q (.unmappedFlag flag)) :
    Noted Q s (s.access flag found hint).2 := by
  cases found with
  | granted reference | excluded => exact .none rfl
  | hinted reference => exact .remark s (hhint reference rfl)
  | unmapped => exact .remark s hunmapped

/-- All remarks of a branch are about its flag. -/
theorem noted_branch {b : Branch}
    (hhint : ∀ reference, flagAccess c.profile b.flag = .hinted reference →
      Q (.hintedBranch reference b.cmp b.value))
    (hunmapped : Q (.unmappedFlag b.flag)) (hinaccessible : Q (.inaccessibleBranch b.flag)) :
    Noted Q s (branch c s b) := by
  have haccess : Noted Q s (s.access b.flag (flagAccess c.profile b.flag) fun r =>
      .hintedBranch r b.cmp b.value).2 := noted_access s hhint hunmapped
  refine haccess.trans ?_
  unfold branch
  dsimp only
  split
  · exact .header _ _
  · have hremark :
        ∀ t : State, Noted Q t ((t.remark (.inaccessibleBranch b.flag)).header .ifFalse) :=
      fun t => (Noted.remark t hinaccessible).trans (.header _ _)
    exact hremark _

/-- An assignment remarks on the flag it reads, then on the one it sets, and last on being
dropped. -/
theorem noted_assign {flag : Int} {op : Renpy.AssignOp} {source : Source}
    (hsource : ∀ level value, Q (.hintedSource level value))
    (hunmapped : ∀ addr, Q (.unmappedFlag addr))
    (hhint : ∀ reference, flagAccess c.profile flag = .hinted reference →
      Q (.hintedAssign reference op ((sourceText c s op source).1.getD "<NO_RESULT>")))
    (hdropped : ∀ reference, (flagAccess c.profile flag).reference? = some reference →
      Q (.droppedAssign reference op)) :
    Noted Q s (assign c s flag op source) := by
  have hread : Noted Q s (sourceText c s op source).2 := by
    cases source with
    | immediate value => exact .none rfl
    | flag addr | through addr => exact noted_access s (fun _ _ => hsource ..) (hunmapped _)
  -- the right side is read first, so its comments come before those of the flag
  unfold assign
  dsimp only
  refine hread.trans ?_
  generalize (sourceText c s op source).1 = value? at hhint ⊢
  generalize (sourceText c s op source).2 = t
  have hflag : Noted Q t (t.access flag (flagAccess c.profile flag) fun r =>
      .hintedAssign r op (value?.getD "<NO_RESULT>")).2 := noted_access t hhint (hunmapped _)
  refine hflag.trans ?_
  split
  · exact .none rfl
  · exact .emit _ _
  · next reference hreference =>
    rw [access_fst] at hreference
    exact .remark _ (hdropped _ hreference)

theorem noted_assignRandom {flag max : Int} (hunmapped : Q (.unmappedFlag flag))
    (hhint : ∀ reference, flagAccess c.profile flag = .hinted reference →
      Q (.hintedAssign reference .set ("renpy.random.randint(0, " ++ toString max ++ ")"))) :
    Noted Q s (assignRandom c s flag max) := by
  unfold assignRandom
  cases hfound : flagAccess c.profile flag with
  | granted reference => exact .emit s _
  | excluded => exact .none rfl
  | hinted reference => exact .remark s (hhint _ hfound)
  | unmapped => exact .remark s hunmapped

theorem noted_clearFlags : Noted Q s (clearFlags c s) :=
  .foldl (fun t _ => .emit t _) _ s

/-- The only remark a line of dialogue can add is about its size. -/
theorem noted_speak (hsize : ∀ size, Q (.unknownTextSize size)) (h : speak c s i = .ok s') :
    Noted Q s s' := by
  have hlineSize : Noted Q s (lineSize s).2 := by
    unfold lineSize
    split
    · exact .none rfl
    · split
      · exact .none rfl
      · split
        · exact .none rfl
        · exact .remark s (hsize _)
  have htake : ∀ (t : State) addr, Noted Q t (takePause c t addr).2 := by
    intro t addr
    unfold takePause
    split
    · exact .none rfl
    · split
      · exact .none rfl
      · exact .none rfl
  have hline : ∀ addr raw, Noted Q s (line c s addr raw).2 := by
    intro addr raw
    unfold line
    dsimp only
    split
    · exact hlineSize
    · exact hlineSize.trans (htake ..)
  unfold speak at h
  split at h
  · split at h
    · next u _ =>
      obtain rfl := Except.ok.inj h
      rw [utter_eq]
      exact (hline i.addr u.text).trans (.none (Document.remarks_statement ..))
    · cases h
  · cases h

/-- All remarks of a choice are about the flag that it depends on. -/
theorem noted_choice (s : State) {o : MenuOption}
    (hhint : ∀ reference, flagAccess c.profile o.flag = .hinted reference →
      Q (.hintedChoice reference))
    (hunmapped : Q (.unmappedFlag o.flag)) (hinaccessible : Q (.inaccessibleChoice o.flag)) :
    Noted Q s (choice c s o) := by
  have hshown : ∀ t condition, Noted Q s t → Noted Q s (((t.header
      (.choice (c.dialogue o.text) condition)).emit
      (.jump (.script (c.scriptName o.target)))).closeScope) := fun t condition ht =>
    ht.trans (((Noted.header t _).trans (.emit _ _)).trans (.closeScope _))
  unfold choice
  cases hfound : flagAccess c.profile o.flag with
  | granted reference => exact hshown s _ (.none rfl)
  | excluded => exact hshown _ _ (.remark s hinaccessible)
  | hinted reference =>
    exact hshown _ _ ((Noted.remark s (hhint reference hfound)).trans (.remark _ hinaccessible))
  | unmapped => exact hshown _ _ ((Noted.remark s hunmapped).trans (.remark _ hinaccessible))

/-- A menu adds the remarks of the line it takes in, then those of its choices. -/
theorem noted_menu {choices : List MenuOption} (hchoice : ∀ t o, Noted Q t (choice c t o))
    (hsize : ∀ size, Q (.unknownTextSize size))
    (hmove : c.profile.moveSayIntoMenu = false → s.held = none) (h : menu c s choices = .ok s') :
    Noted Q s s' := by
  have hchoices : ∀ t, Noted Q t (choices.foldl (choice c) t).closeScope := fun t =>
    (Noted.foldl hchoice choices t).trans (.closeScope _)
  rcases menu_cases hmove h with ⟨-, rfl⟩ | ⟨j, t, -, hspeak, rfl⟩
  · exact (Noted.header s _).trans (hchoices _)
  · have hopen : Noted Q s { s.header .menu with held := none } :=
      .none (s.document.remarks_header _)
    exact (hopen.trans (noted_speak hsize hspeak)).trans (hchoices t)

theorem noted_say (hQ : ∀ r, Command.say.notes r = true → Q r) (h : say c s i rest = .ok s') :
    Noted Q s s' := by
  unfold say at h
  split at h
  · obtain rfl := Except.ok.inj h
    exact .remark s (hQ _ rfl)
  · exact noted_speak (fun _ => hQ _ rfl) h

/-- A pause is remarked on where a line has taken it over. -/
theorem noted_sleep {ms : Option Int} (hQ : ∀ r, (Command.sleep ms).notes r = true → Q r)
    (h : sleep s i ms = .ok s') : Noted Q s s' := by
  unfold sleep at h
  split at h
  · obtain rfl := Except.ok.inj h
    exact .one (hQ _ rfl) (s.document.remarks_comment _)
  · split at h
    · obtain rfl := Except.ok.inj h
      exact .emit s _
    · cases h

/-! ## Sound and calls -/

theorem noted_remarkChannel {channel : Int} (hQ : Q (.registerChannel channel)) :
    Noted Q s (remarkChannel s channel) := by
  unfold remarkChannel
  split
  · exact .none rfl
  · exact .remark s hQ

theorem noted_stopSound {channel : Int} {fadeout : Option Int} (hQ : Q (.registerChannel channel)) :
    Noted Q s (stopSound s channel fadeout) := by
  unfold stopSound
  split
  · exact .emit s _
  · exact (noted_remarkChannel hQ).trans (.emit _ _)

theorem noted_voice (s : State) (file : List UInt8) : Noted Q s (voice c s file) := by
  unfold voice
  dsimp only
  split
  · exact .emit s _
  · exact .none (s.document.remarks_statement _)

/-- The hooks of a call are statements. -/
theorem noted_call (s : State) (script : List UInt8) : Noted Q s (call c s script) := by
  have hhook : ∀ (t : State) action, Noted Q t (applyHook t action) := by
    intro t action
    cases action with
    | statement text => exact .emit t _
    | standIn slot reference => exact .none rfl
  exact (Noted.emit s _).trans (.foldl hhook _ _)

/-! ## Scenery and animations -/

/-- A viewport is remarked on if there is no background to look at. -/
theorem noted_setViewport {zoom xpan ypan : Int}
    (hQ : ∀ r, (Command.viewport zoom xpan ypan).notes r = true → Q r) :
    Noted Q s (setViewport s zoom xpan ypan) := by
  unfold setViewport
  split
  · exact .none rfl
  · exact .remark s (hQ _ rfl)

/-- A foreground is remarked on if an animation keeps it from being replaced. -/
theorem noted_showForeground {addr index : Nat} {name : String} {x y : Int} {untinted : Bool}
    (hQ : Q .replacementInhibited) (h : showForeground s addr index name x y untinted = .ok s') :
    Noted Q s s' := by
  have hput : ∀ t, putForeground s addr index name x y = .ok t → Noted Q s t := by
    intro t ht
    unfold putForeground at ht
    split at ht
    · obtain rfl := Except.ok.inj ht
      exact .none rfl
    · split at ht
      · obtain rfl := Except.ok.inj ht
        exact .remark s hQ
      · dsimp only at ht
        split at ht
        · obtain rfl := Except.ok.inj ht
          exact .none rfl
        · cases ht
  unfold showForeground at h
  cases ht : putForeground s addr index name x y with
  | error halt =>
    rw [ht] at h
    cases h
  | ok t =>
    rw [ht] at h
    obtain rfl := Except.ok.inj h
    exact (hput t ht).trans (.none rfl)

theorem noted_showObject {addr : Nat} {name : String} {x y : Int}
    (h : showObject s addr name x y = .ok s') :
    Noted Q s s' := by
  unfold showObject at h
  dsimp only at h
  split at h
  · split at h
    · split at h
      · obtain rfl := Except.ok.inj h
        exact .none rfl
      · cases h
    · obtain rfl := Except.ok.inj h
      exact .none rfl
  · obtain rfl := Except.ok.inj h
    exact .none rfl

theorem noted_clearForeground {index : Int} (hQ : Q (.clearForeground index)) :
    Noted Q s (clearForeground s index) := by
  refine (Noted.remark s hQ).trans ?_
  unfold clearForeground
  dsimp only
  split
  · exact .none rfl
  · exact .none rfl

theorem noted_clearObject (hQ : Q .clearObject) : Noted Q s (clearObject s) := by
  refine (Noted.remark s hQ).trans ?_
  unfold clearObject
  dsimp only
  split
  · exact .none rfl
  · exact .none rfl

theorem noted_weather {kind limit : Int} (hQ : Q (.unknownWeather kind)) :
    Noted Q s (weather c s kind limit) := by
  unfold weather
  split
  · exact .emit s _
  · split
    · exact .emit s _
    · exact .remark s hQ

theorem noted_screenEffect {kind duration magnitude : Int} (hQ : Q (.unknownScreenEffect kind)) :
    Noted Q s (screenEffect s kind duration magnitude) := by
  unfold screenEffect
  split
  · exact .emit s _
  · split
    · split
      · exact ((Noted.header s _).trans (.emit _ _)).trans (.closeScope _)
      · exact .emit s _
    · exact .remark s hQ

/-- The remarks of a transition give the name of its method. -/
theorem noted_transition {addr : Nat} {method : Method} {ms : Int}
    (hunknown : Q (.unknownTransition method.name (transitionTime ms)))
    (hgfxNext : Q (.needsGfxNext method.name)) (h : transition c s addr method ms = .ok s') :
    Noted Q s s' := by
  have hdissolve : ∀ (t : State) time r, Q r → Noted Q t (dissolve t time r) := fun t time r hr =>
    (Noted.remark t hr).trans (.emit _ _)
  unfold transition at h
  dsimp only at h
  split at h
  · obtain rfl := Except.ok.inj h
    exact .draw c s
  · refine (Noted.draw c s).trans ?_
    rcases showEffect_cases h with ⟨effect, rfl⟩ | rfl | rfl
    · exact .emit _ _
    · exact hdissolve _ _ _ hunknown
    · exact hdissolve _ _ _ hgfxNext

/-- A motion is remarked on if the picture it would move is not there. -/
theorem noted_addMotion {addr : Nat} {m : Motion} (hmissing : Q .missingBackground)
    (hcleared : ∀ index, Q (.clearedForeground index)) (h : addMotion s addr m = .ok s') :
    Noted Q s s' := by
  have hbackground : ∀ kind, Noted Q s (moveBackground s kind m) := by
    intro kind
    unfold moveBackground
    split
    · exact .none rfl
    · exact .remark s hmissing
  have hforeground : ∀ kind index, moveForeground s addr kind index m = .ok s' → Noted Q s s' := by
    intro kind index hmove
    unfold moveForeground at hmove
    split at hmove
    · obtain rfl := Except.ok.inj hmove
      exact .remark s (hcleared index)
    · split at hmove
      · obtain rfl := Except.ok.inj hmove
        exact .none rfl
      · cases hmove
  unfold addMotion at h
  split at h
  · obtain rfl := Except.ok.inj h
    exact hbackground .linear
  · split at h
    · obtain rfl := Except.ok.inj h
      exact hbackground .shake
    · split at h
      · exact hforeground _ _ h
      · exact hforeground _ _ h

/-- A key frame is doubted for the reason that its place in the script gives. -/
theorem noted_keyFrame {motion : Option Motion}
    (hdoubt : ∀ why, animationDoubt? c i.addr = some why → Q (.notAnimated why))
    (hmissing : Q .missingBackground) (hcleared : ∀ index, Q (.clearedForeground index))
    (h : keyFrame c s i motion = .ok s') : Noted Q s s' := by
  unfold keyFrame at h
  split at h
  · next why hwhy =>
    obtain rfl := Except.ok.inj h
    split at hwhy
    · exact .remark s (hdoubt why hwhy)
    · cases hwhy
  · split at h
    · exact noted_addMotion hmissing hcleared h
    · cases h

theorem noted_play (hQ : Q .playDelayed) : Noted Q s (play c s rest) := by
  unfold play
  split
  · exact .draw c _
  · exact .one hQ (s.document.remarks_comment _)

/-! ## Commands and steps -/

/-- A doubt about the animation at an address is the one that its place in the script gives. -/
def IsFounded (c : Context) (addr : Nat) (r : Remark) : Prop :=
  ∀ why, r = .notAnimated why → animationDoubt? c addr = some why

/-- Only key frames are doubted. -/
theorem isFounded_of_notes {r : Remark} (hcommand : ∀ motion, command ≠ .keyFrame motion)
    (h : command.notes r = true) (c : Context) (addr : Nat) : IsFounded c addr r := by
  intro why hwhy
  subst hwhy
  cases command with
  | keyFrame motion => exact absurd rfl (hcommand motion)
  | _ => cases h

/-- A command adds only remarks that it is known to add, and a doubt about an animation only if the
detection has it. -/
theorem noted_execute (hmove : c.profile.moveSayIntoMenu = false → s.held = none)
    (h : execute c i rest s command = .ok s') :
    Noted (fun r => command.notes r = true ∧ IsFounded c i.addr r) s s' := by
  -- a doubt about an animation comes from a key frame only, so its reason is looked at there
  by_cases hkeyFrame : ∃ motion, command = .keyFrame motion
  · obtain ⟨motion, rfl⟩ := hkeyFrame
    refine noted_keyFrame (fun why hwhy => ⟨rfl, fun why' heq => ?_⟩)
      ⟨rfl, fun _ heq => by cases heq⟩
      (fun index => ⟨rfl, fun _ heq => by cases heq⟩) h
    cases heq
    exact hwhy
  · have hother : ∀ motion, command ≠ .keyFrame motion := fun motion heq => hkeyFrame ⟨motion, heq⟩
    refine Noted.mono (Q := fun r => command.notes r = true) ?_ fun r hr =>
      ⟨hr, isFounded_of_notes hother hr c i.addr⟩
    cases command with
    | branch b =>
      obtain rfl := Except.ok.inj h
      exact noted_branch (fun _ _ => rfl) rfl rfl
    | jump target =>
      obtain rfl := Except.ok.inj h
      exact .none (s.document.remarks_statement _)
    | call script =>
      obtain rfl := Except.ok.inj h
      exact noted_call s script
    | menu choices =>
      exact noted_menu (fun t o => noted_choice t (fun _ _ => rfl) rfl rfl) (fun _ => rfl) hmove h
    | revealDuration value =>
      obtain rfl := Except.ok.inj h
      exact .one rfl (s.document.remarks_comment _)
    | revealFromFlag flag | playNowhere =>
      obtain rfl := Except.ok.inj h
      exact .remark s rfl
    | assign flag op source =>
      obtain rfl := Except.ok.inj h
      exact noted_assign (fun _ _ => rfl) (fun _ => rfl) (fun _ _ => rfl) (fun _ _ => rfl)
    | random flag max =>
      obtain rfl := Except.ok.inj h
      exact noted_assignRandom rfl fun _ _ => rfl
    | clearFlags =>
      obtain rfl := Except.ok.inj h
      exact noted_clearFlags
    | say => exact noted_say (fun _ hr => hr) h
    | sleep ms => exact noted_sleep (fun _ hr => hr) h
    | playSound channel file fadein repeats =>
      obtain rfl := Except.ok.inj h
      have hchannel :
          Noted (fun r => (Command.playSound channel file fadein repeats).notes r = true) s
            (remarkChannel s channel) :=
        noted_remarkChannel rfl
      exact hchannel.trans (.emit _ _)
    | stopSound channel fadeout =>
      obtain rfl := Except.ok.inj h
      exact noted_stopSound rfl
    | voice file =>
      obtain rfl := Except.ok.inj h
      exact noted_voice s file
    | viewport zoom xpan ypan =>
      obtain rfl := Except.ok.inj h
      exact noted_setViewport fun _ hr => hr
    | foreground index name x y untinted => exact noted_showForeground rfl h
    | object name x y => exact noted_showObject h
    | clearForeground index =>
      obtain rfl := Except.ok.inj h
      exact noted_clearForeground rfl
    | clearObject =>
      obtain rfl := Except.ok.inj h
      exact noted_clearObject rfl
    | mask name =>
      obtain rfl := Except.ok.inj h
      exact .one rfl (s.document.remarks_comment _)
    | weather kind limit =>
      obtain rfl := Except.ok.inj h
      exact noted_weather rfl
    | screenEffect kind duration magnitude =>
      obtain rfl := Except.ok.inj h
      exact noted_screenEffect rfl
    | transition method ms => exact noted_transition rfl rfl h
    | keyFrame motion => exact absurd rfl (hother motion)
    | play =>
      obtain rfl := Except.ok.inj h
      exact noted_play rfl
    | nothing | textSize size | background name x y | tint index =>
      obtain rfl := Except.ok.inj h
      exact .none rfl
    | goto script | ret | extend text | eventName name | playMusic file fadein | stopMusic fadeout
    | sideImage name | hideSideImage | clearScreenEffect | video file =>
      obtain rfl := Except.ok.inj h
      exact .emit s _

/-- A command that halts has not remarked on anything. -/
theorem noted_of_error {halt : Halt} (h : execute c i rest s command = .error halt) :
    Noted Q s halt.state := by
  have hhalted := halted_of_error h
  generalize halt.state = t at hhalted ⊢
  cases hhalted with
  | stage g => exact .none rfl
  | menu => exact .none (s.document.remarks_header _)
  | drawn => exact .draw c s

/-- The comments that are made at an instruction. -/
inductive RemarkedBy (c : Context) (i : Instruction) : Remark → Prop where
  | skipStart (index : Nat) : RemarkedBy c i (.skipStart index)
  | skipEnd (index : Nat) : RemarkedBy c i (.skipEnd index)
  | listing : RemarkedBy c i (.listing (i.listing c.profile.charset c.profile.readers))
  | unhandled : Reading.ofInstruction i = .unhandled →
      RemarkedBy c i (.unhandled (i.listing c.profile.charset c.profile.readers))
  | command {command : Command} {r : Remark} : Reading.ofInstruction i = .command command →
      command.notes r = true → IsFounded c i.addr r → RemarkedBy c i r

theorem noted_closeBranches (s : State) (addr : Nat) : Noted Q s (s.closeBranches addr) :=
  .trans (.foldl (f := fun s _ => s.closeScope) (fun t _ => .closeScope t) _ s) (.none rfl)

theorem noted_placeLabel (s : State) (addr : Nat) : Noted Q s (s.placeLabel c addr) := by
  unfold State.placeLabel
  split
  · exact (Noted.closeScope _).trans (.header _ _)
  · exact .none rfl

/-- Each end of a range of scenes is remarked on. -/
theorem noted_placeSkipMark (s : State) (addr : Nat) (hstart : ∀ index, Q (.skipStart index))
    (hend : ∀ index, Q (.skipEnd index)) : Noted Q s (s.placeSkipMark c addr) := by
  unfold State.placeSkipMark
  split
  · exact .none rfl
  · next index insertTransition stopScript _ =>
    have hguarded : Noted Q s ((s.remark (.skipStart index)).header
        (.ifNotPersistent c.profile.adultSkip.variableName)) :=
      (Noted.remark s (hstart index)).trans (.header _ _)
    dsimp only
    split
    · exact (((hguarded.trans (.emit _ _)).trans (.emit _ _)).trans (.emit _ _)).trans
        (.closeScope _)
    · exact (hguarded.trans (.emit _ _)).trans (.closeScope _)
  · next index _ =>
    exact ((Noted.closeScope s).trans (.remark _ (hend index))).trans (.header _ _)

/-- On the way to an instruction nothing else is. -/
theorem noted_arrive (s : State) (rest : List Instruction) (hstart : ∀ index, Q (.skipStart index))
    (hend : ∀ index, Q (.skipEnd index)) : Noted Q s (s.arrive c i rest) := by
  have hplaced :
      Noted Q s (((s.placeSkipMark c i.addr).closeBranches i.addr).placeLabel c i.addr) :=
    ((noted_placeSkipMark s i.addr hstart hend).trans (noted_closeBranches ..)).trans
      (noted_placeLabel ..)
  unfold State.arrive
  dsimp only
  split
  · exact hplaced.trans (.none rfl)
  · exact hplaced

/-- An announcement adds the listing of its instruction, if any. -/
theorem noted_announce (s : State)
    (hlisting : Q (.listing (i.listing c.profile.charset c.profile.readers))) :
    Noted Q s (announce c s i) := by
  unfold announce
  dsimp only
  split
  · exact .one hlisting (s.document.remarks_comment _)
  · exact .none rfl

/-- The comments of a step are those around its command and those of the command, whether it halts
or not. -/
theorem noted_step_of (hmove : c.profile.moveSayIntoMenu = false → s.held = none)
    (rest : List Instruction) (hstart : ∀ index, Q (.skipStart index))
    (hend : ∀ index, Q (.skipEnd index))
    (hlisting : Q (.listing (i.listing c.profile.charset c.profile.readers)))
    (hunhandled : Reading.ofInstruction i = .unhandled →
      Q (.unhandled (i.listing c.profile.charset c.profile.readers)))
    (hcommand : ∀ command t t', Reading.ofInstruction i = .command command →
      (c.profile.moveSayIntoMenu = false → t.held = none) → execute c i rest t command = .ok t' →
        Noted Q t t') :
    Noted Q s (outcome (step c s i rest)) := by
  have harrive : Noted Q s (s.arrive c i rest) := noted_arrive s rest hstart hend
  have hannounce : Noted Q s (announce c (s.arrive c i rest) i) :=
    harrive.trans (noted_announce _ hlisting)
  have hends := stepEnds_outcome c s i rest
  generalize outcome (step c s i rest) = t at hends ⊢
  cases hends with
  | ending => exact (noted_closeBranches s i.addr).trans (noted_placeLabel ..)
  | unhandled _ hread => exact harrive.trans (.remark _ (hunhandled hread))
  | malformed => exact hannounce
  | @command command _ hread =>
    refine hannounce.trans ?_
    cases hexec : execute c i rest (announce c (s.arrive c i rest) i) command with
    | error halt => exact noted_of_error hexec
    | ok t => exact hcommand command _ _ hread (held_announce_arrive hmove) hexec

/-- A step makes the comments of its instruction. -/
theorem noted_step (hmove : c.profile.moveSayIntoMenu = false → s.held = none)
    (rest : List Instruction) :
    Noted (RemarkedBy c i) s (outcome (step c s i rest)) :=
  noted_step_of hmove rest .skipStart .skipEnd .listing .unhandled
    fun _ _ _ hread hheld hexec => (noted_execute hheld hexec).mono
      fun _ hr => .command hread hr.1 hr.2

/-! ## The whole run -/

section

variable {R : Instruction → Remark → Prop}

/-- The first comment tells that the script was generated. -/
theorem remarks_start (c : Context) : (start c).document.remarks = [.generated] := by
  simp [start, Document.remarks, Document.header, Document.statement, Document.comment,
    Document.push, Document.openScope]

/-- By induction on the run, any other comment comes from the step of some instruction. -/
theorem remarks_of_reached
    (hR : ∀ i rest s, Reached c (i :: rest) s → Noted (R i) s (outcome (step c s i rest)))
    (h : Reached c rest s) :
    ∀ r ∈ s.document.remarks, r = .generated ∨ ∃ i ∈ c.instructions, R i r := by
  induction h with
  | here =>
    intro r hr
    rw [remarks_start] at hr
    exact .inl (List.mem_singleton.mp hr)
  | @step i rest t t' hruns hstep ih =>
    obtain ⟨added, hadded, hby⟩ := hR i rest t hruns
    rw [hstep] at hadded
    intro r hr
    rw [show t'.document.remarks = t.document.remarks ++ added from hadded] at hr
    rcases List.mem_append.mp hr with hr | hr
    · exact ih r hr
    · exact .inr ⟨i, Runs.mem hruns, hby r hr⟩

/-- Every comment of a screenplay is its first or last line, or is made by a step. -/
theorem remarks_of_steps {p : Screenplay}
    (hR : ∀ i rest s, Reached c (i :: rest) s → Noted (R i) s (outcome (step c s i rest)))
    (h : Outcome c p) :
    ∀ r ∈ p.document.remarks, r = .generated ∨ r = .interrupted ∨ ∃ i ∈ c.instructions, R i r := by
  intro r hr
  cases h with
  | complete hs _ hdocument =>
    rw [hdocument, Document.remarks_closeAll] at hr
    exact (remarks_of_reached hR hs r hr).imp id .inr
  | @halted i rest s halt hs hstep _ hdocument =>
    obtain ⟨added, hadded, hby⟩ := hR i rest s hs
    rw [hstep] at hadded
    rw [hdocument, Document.remarks_statement, Document.remarks_comment,
      show halt.state.document.remarks = s.document.remarks ++ added from hadded] at hr
    rcases List.mem_append.mp hr with hr | hr
    · rcases List.mem_append.mp hr with hr | hr
      · exact (remarks_of_reached hR hs r hr).imp id .inr
      · exact .inr (.inr ⟨i, Runs.mem hs, hby r hr⟩)
    · exact .inr (.inl (List.mem_singleton.mp hr))

end

/-- So it is its first or last line, or is made at one of the instructions. -/
theorem remarks_of_outcome {p : Screenplay} (h : Outcome c p) :
    ∀ r ∈ p.document.remarks,
      r = .generated ∨ r = .interrupted ∨ ∃ i ∈ c.instructions, RemarkedBy c i r :=
  remarks_of_steps (fun _ rest _ hs => noted_step (held_of_reached hs) rest) h

end Rio.Screenplay
