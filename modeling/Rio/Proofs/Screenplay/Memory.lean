import Rio.Proofs.Screenplay.Written

/-!
# What a run remembers

Besides the document a run keeps what is on the stage, the line that waits for a menu, how fast
lines appear and the pauses that lines have taken over: its `Memory`. Few commands change it, and
each only a part of it:

> `memory_execute`: commands other than those of the scenery and of dialogue leave the memory as it
> is;
> `staging_execute`: commands of the scenery change the stage only;
> `stage_execute`: all others leave the stage alone.

On the way to an instruction only the line that waits may change (`memory_announce_arrive`).
-/

namespace Rio.Screenplay

open Renpy (Remark Statement)

/-- What a run remembers besides what it has written. -/
structure Memory where
  stage : Stage
  held : Option Instruction
  revealDuration : Int
  inlinedPauses : List Nat

def State.memory (s : State) : Memory :=
  ⟨s.stage, s.held, s.revealDuration, s.inlinedPauses⟩

variable {c : Context} {s s' t : State} {i : Instruction} {rest : List Instruction}
  {command : Command}

/-! ## Writing -/

@[simp] theorem memory_emit (s : State) (st : Statement) : (s.emit st).memory = s.memory := rfl

@[simp] theorem memory_header (s : State) (st : Statement) : (s.header st).memory = s.memory := rfl

@[simp] theorem memory_remark (s : State) (r : Remark) : (s.remark r).memory = s.memory := rfl

@[simp] theorem memory_closeScope (s : State) : s.closeScope.memory = s.memory := rfl

/-- A loop keeps the memory if each of its rounds does. -/
theorem memory_foldl {α : Type} {f : State → α → State} (hf : ∀ t x, (f t x).memory = t.memory)
    (xs : List α) (s : State) : (xs.foldl f s).memory = s.memory := by
  induction xs generalizing s with
  | nil => rfl
  | cons x xs ih => rw [List.foldl_cons, ih, hf]

theorem memory_access (s : State) (flag : Int) (found : FlagAccess) (hint : String → Remark) :
    (s.access flag found hint).2.memory = s.memory := by
  cases found <;> rfl

/-- Assignments are written and not remembered. -/
theorem memory_assign (s : State) (flag : Int) (op : Renpy.AssignOp) (source : Source) :
    (assign c s flag op source).memory = s.memory := by
  have hsource : (sourceText c s op source).2.memory = s.memory := by
    cases source with
    | immediate value => rfl
    | flag addr | through addr => exact memory_access ..
  unfold assign
  dsimp only
  rw [← hsource]
  generalize (sourceText c s op source).2 = t
  split
  · exact memory_access ..
  · exact (memory_emit ..).trans (memory_access ..)
  · exact (memory_remark ..).trans (memory_access ..)

theorem memory_assignRandom (s : State) (flag max : Int) :
    (assignRandom c s flag max).memory = s.memory := by
  unfold assignRandom
  cases flagAccess c.profile flag <;> rfl

/-- Where a branch ends is kept apart from the memory. -/
theorem memory_branch (s : State) (b : Branch) : (branch c s b).memory = s.memory := by
  unfold branch
  cases flagAccess c.profile b.flag <;> rfl

theorem memory_choice (s : State) (o : MenuOption) : (choice c s o).memory = s.memory := by
  unfold choice
  cases flagAccess c.profile o.flag <;> rfl

theorem memory_remarkChannel (s : State) (channel : Int) :
    (remarkChannel s channel).memory = s.memory := by
  unfold remarkChannel
  split <;> rfl

theorem memory_stopSound (s : State) (channel : Int) (fadeout : Option Int) :
    (stopSound s channel fadeout).memory = s.memory := by
  unfold stopSound
  split
  · rfl
  · exact memory_remarkChannel ..

/-- Who a voice tells of is kept apart from it too. -/
theorem memory_voice (s : State) (file : List UInt8) : (voice c s file).memory = s.memory := by
  unfold voice
  dsimp only
  split <;> rfl

theorem memory_weather (s : State) (kind limit : Int) :
    (weather c s kind limit).memory = s.memory := by
  unfold weather
  split
  · rfl
  · split <;> rfl

theorem memory_screenEffect (s : State) (kind duration magnitude : Int) :
    (screenEffect s kind duration magnitude).memory = s.memory := by
  unfold screenEffect
  split
  · rfl
  · split
    · split <;> rfl
    · rfl

/-! ## On the way to an instruction -/

/-- The ends of a range of scenes are written and not remembered. -/
theorem memory_placeSkipMark (s : State) (addr : Nat) :
    (s.placeSkipMark c addr).memory = s.memory := by
  unfold State.placeSkipMark
  split
  · rfl
  · dsimp only
    split <;> rfl
  · rfl

theorem memory_closeBranches (s : State) (addr : Nat) : (s.closeBranches addr).memory = s.memory :=
  memory_foldl (f := fun s _ => s.closeScope) (fun _ _ => rfl) _ s

theorem memory_placeLabel (s : State) (addr : Nat) : (s.placeLabel c addr).memory = s.memory := by
  unfold State.placeLabel
  split <;> rfl

theorem memory_announce (s : State) (i : Instruction) : (announce c s i).memory = s.memory := by
  unfold announce
  dsimp only
  split <;> rfl

/-- A line that waits for a menu is remembered. -/
theorem memory_arrive (s : State) (i : Instruction) (rest : List Instruction) :
    (s.arrive c i rest).memory
      = { s.memory with held := if waitsForMenu c i rest then some i else s.held } := by
  have hplaced : (((s.placeSkipMark c i.addr).closeBranches i.addr).placeLabel c i.addr).memory
      = s.memory := by
    rw [memory_placeLabel, memory_closeBranches, memory_placeSkipMark]
  unfold State.arrive
  dsimp only
  split
  · show { (((s.placeSkipMark c i.addr).closeBranches i.addr).placeLabel c i.addr).memory with
      held := some i } = _
    rw [hplaced]
  · exact hplaced

/-- On the way to an instruction all that changes is the line that waits for a menu. -/
theorem memory_announce_arrive (s : State) (i : Instruction) (rest : List Instruction) :
    (announce c (s.arrive c i rest) i).memory
      = { s.memory with held := if waitsForMenu c i rest then some i else s.held } := by
  rw [memory_announce, memory_arrive]

/-- So the stage is as the instruction before has left it. -/
theorem stage_announce_arrive (s : State) (i : Instruction) (rest : List Instruction) :
    (announce c (s.arrive c i rest) i).stage = s.stage :=
  congrArg Memory.stage (memory_announce_arrive s i rest)

/-! ## Scenery -/

/-- The effect of a transition is only written. -/
theorem memory_showEffect {addr : Nat} {method : Method} {ms : Int}
    (h : showEffect c s addr method ms = .ok s') : s'.memory = s.memory := by
  rcases showEffect_cases h with ⟨effect, rfl⟩ | rfl | rfl
  · rfl
  · rfl
  · rfl

/-- Only the stage has changed. -/
def Staging (s s' : State) : Prop :=
  s'.memory = { s.memory with stage := s'.stage }

namespace Staging

theorem refl (s : State) : Staging s s := rfl

theorem of_memory_eq (h : s'.memory = s.memory) : Staging s s' :=
  h.trans (congrArg (fun m => { s.memory with stage := m.stage }) h.symm)

/-- The stage may change twice. -/
theorem trans (h : Staging s t) (h' : Staging t s') : Staging s s' := by
  unfold Staging at h h' ⊢
  rw [h', h]

theorem stage (s : State) (g : Stage) : Staging s { s with stage := g } := rfl

theorem remark (s : State) (r : Remark) : Staging s (s.remark r) := rfl

/-- Drawing marks what it has drawn, on the stage. -/
theorem draw (c : Context) (s : State) : Staging s (draw c s).2 := by
  rw [draw_eq]
  rfl

theorem foldl {α : Type} {f : State → α → State} (hf : ∀ t x, Staging t (f t x)) (xs : List α)
    (h : Staging s t) : Staging s (xs.foldl f t) := by
  induction xs generalizing t with
  | nil => exact h
  | cons x xs ih => exact ih (h.trans (hf t x))

/-- The hooks of a call may put something on the stage. -/
theorem call (s : State) (script : List UInt8) : Staging s (call c s script) := by
  have hhook : ∀ (t : State) action, Staging t (applyHook t action) := by
    intro t action
    cases action <;> rfl
  exact foldl hhook _ (t := s.emit _) rfl

theorem setViewport (s : State) (zoom xpan ypan : Int) :
    Staging s (setViewport s zoom xpan ypan) := by
  unfold Screenplay.setViewport
  split <;> rfl

/-- Whether a place was taken or not, only the stage changes. -/
theorem putForeground {addr index : Nat} {name : String} {x y : Int}
    (h : putForeground s addr index name x y = .ok s') : Staging s s' := by
  unfold Screenplay.putForeground at h
  split at h
  · obtain rfl := Except.ok.inj h
    rfl
  · split at h
    · obtain rfl := Except.ok.inj h
      rfl
    · dsimp only at h
      split at h
      · obtain rfl := Except.ok.inj h
        rfl
      · cases h

theorem showForeground {addr index : Nat} {name : String} {x y : Int} {untinted : Bool}
    (h : showForeground s addr index name x y untinted = .ok s') : Staging s s' := by
  unfold Screenplay.showForeground at h
  cases hput : Screenplay.putForeground s addr index name x y with
  | error halt =>
    rw [hput] at h
    cases h
  | ok t =>
    rw [hput] at h
    obtain rfl := Except.ok.inj h
    exact (putForeground hput).trans (.stage t _)

theorem showObject {addr : Nat} {name : String} {x y : Int}
    (h : showObject s addr name x y = .ok s') : Staging s s' := by
  unfold Screenplay.showObject at h
  dsimp only at h
  split at h
  · split at h
    · split at h
      · obtain rfl := Except.ok.inj h
        rfl
      · cases h
    · obtain rfl := Except.ok.inj h
      rfl
  · obtain rfl := Except.ok.inj h
    rfl

theorem clearForeground (s : State) (index : Int) : Staging s (clearForeground s index) := by
  unfold Screenplay.clearForeground
  dsimp only
  split <;> rfl

theorem clearObject (s : State) : Staging s (clearObject s) := by
  unfold Screenplay.clearObject
  dsimp only
  split <;> rfl

/-- A transition draws, and its effect is only written. -/
theorem transition {addr : Nat} {method : Method} {ms : Int}
    (h : transition c s addr method ms = .ok s') : Staging s s' := by
  unfold Screenplay.transition at h
  dsimp only at h
  split at h
  · obtain rfl := Except.ok.inj h
    exact draw c s
  · exact (draw c s).trans (.of_memory_eq (memory_showEffect h))

/-- A key frame is added to a picture on the stage. -/
theorem keyFrame {motion : Option Motion} (h : keyFrame c s i motion = .ok s') : Staging s s' := by
  have hbackground : ∀ kind (m : Motion), Staging s (moveBackground s kind m) := by
    intro kind m
    unfold moveBackground
    split <;> rfl
  have hforeground : ∀ kind index (m : Motion),
      moveForeground s i.addr kind index m = .ok s' → Staging s s' := by
    intro kind index m h
    unfold moveForeground at h
    split at h
    · obtain rfl := Except.ok.inj h
      rfl
    · split at h
      · obtain rfl := Except.ok.inj h
        rfl
      · cases h
  unfold Screenplay.keyFrame at h
  split at h
  · obtain rfl := Except.ok.inj h
    rfl
  · split at h
    · unfold addMotion at h
      split at h
      · obtain rfl := Except.ok.inj h
        exact hbackground ..
      · split at h
        · obtain rfl := Except.ok.inj h
          exact hbackground ..
        · split at h
          · exact hforeground _ _ _ h
          · exact hforeground _ _ _ h
    · cases h

theorem play (s : State) (rest : List Instruction) : Staging s (play c s rest) := by
  unfold Screenplay.play
  split
  · exact (stage s _).trans (draw c _)
  · rfl

end Staging

/-! ## Dialogue -/

/-- Saying a line may take over a pause. -/
theorem memory_line (s : State) (addr : Nat) (raw : List UInt8) :
    (line c s addr raw).2.memory
      = { s.memory with inlinedPauses := (line c s addr raw).2.inlinedPauses } := by
  have hsize : (lineSize s).2.memory = s.memory := by
    unfold lineSize
    split
    · rfl
    · split
      · rfl
      · split <;> rfl
  have htake : ∀ t : State, (takePause c t addr).2.memory
      = { t.memory with inlinedPauses := (takePause c t addr).2.inlinedPauses } := by
    intro t
    unfold takePause
    split
    · rfl
    · split <;> rfl
  unfold line
  dsimp only
  split
  · exact hsize.trans (congrArg
      (fun m => { s.memory with inlinedPauses := m.inlinedPauses }) hsize.symm)
  · rw [htake, hsize]

/-- A line of dialogue may take over a pause, and changes nothing else. -/
theorem memory_speak (h : speak c s i = .ok s') :
    s'.memory = { s.memory with inlinedPauses := s'.inlinedPauses } := by
  unfold speak at h
  split at h
  · split at h
    · obtain rfl := Except.ok.inj h
      exact memory_line ..
    · cases h
  · cases h

/-- The line that waits for a menu is said under it. -/
theorem memory_menu {choices : List MenuOption} (h : menu c s choices = .ok s') :
    s'.memory = { s.memory with
      held := if c.profile.moveSayIntoMenu then none else s.held
      inlinedPauses := s'.inlinedPauses } := by
  have hrest : ∀ t : State, (choices.foldl (choice c) t).closeScope.memory = t.memory :=
    fun t => memory_foldl memory_choice choices t
  unfold menu at h
  dsimp only at h
  split at h
  · next j hmove hheld =>
    cases hspeak : speak c { s.header .menu with held := none } j with
    | error halt =>
      rw [hspeak] at h
      cases h
    | ok t =>
      rw [hspeak] at h
      obtain rfl := Except.ok.inj h
      have hpauses : (choices.foldl (choice c) t).closeScope.inlinedPauses = t.inlinedPauses :=
        congrArg Memory.inlinedPauses (hrest t)
      rw [hrest, memory_speak hspeak, hmove, hpauses]
      rfl
  · next hnone =>
    obtain rfl := Except.ok.inj h
    have hmemory := hrest (s.header .menu)
    have hheld : (if c.profile.moveSayIntoMenu then none else s.held) = s.held := by
      cases hmove : c.profile.moveSayIntoMenu with
      | false => rfl
      | true =>
        cases hheld : s.held with
        | none => rfl
        | some j => exact absurd hheld (hnone j hmove)
    rw [hheld]
    exact hmemory.trans
      (congrArg (fun m => { s.memory with inlinedPauses := m.inlinedPauses }) hmemory.symm)

/-- A pause that a line has taken over is crossed off. -/
theorem memory_sleep {ms : Option Int} (h : sleep s i ms = .ok s') :
    s'.memory = { s.memory with inlinedPauses := s'.inlinedPauses } := by
  unfold sleep at h
  split at h
  · obtain rfl := Except.ok.inj h
    rfl
  · split at h
    · obtain rfl := Except.ok.inj h
      rfl
    · cases h

/-- A line that waits for its menu is not remembered by what says it, but on the way to it. -/
theorem memory_say (h : say c s i rest = .ok s') :
    s'.memory = { s.memory with inlinedPauses := s'.inlinedPauses } := by
  unfold say at h
  split at h
  · obtain rfl := Except.ok.inj h
    rfl
  · exact memory_speak h

/-! ## Commands -/

/-- Commands that may change the stage. A call does so by its hooks. -/
def Command.isScenery : Command → Bool
  | .call _ | .background .. | .viewport .. | .foreground .. | .tint _ | .object .. |
      .clearForeground _
  | .clearObject | .mask _ | .transition .. | .keyFrame _ | .play => true
  | _ => false

/-- Commands that may change what is remembered about dialogue. -/
def Command.isDialogue : Command → Bool
  | .revealDuration _ | .say | .menu _ | .sleep _ => true
  | _ => false

/-- The commands of the scenery change the stage and nothing else. -/
theorem staging_execute (hscenery : command.isScenery = true)
    (h : execute c i rest s command = .ok s') : Staging s s' := by
  cases command with
  | call script =>
    obtain rfl := Except.ok.inj h
    exact .call s script
  | viewport zoom xpan ypan =>
    obtain rfl := Except.ok.inj h
    exact .setViewport ..
  | background | tint | mask =>
    obtain rfl := Except.ok.inj h
    rfl
  | foreground index name x y untinted => exact .showForeground h
  | object name x y => exact .showObject h
  | clearForeground index =>
    obtain rfl := Except.ok.inj h
    exact .clearForeground s index
  | clearObject =>
    obtain rfl := Except.ok.inj h
    exact .clearObject s
  | transition method ms => exact .transition h
  | keyFrame motion => exact .keyFrame h
  | play =>
    obtain rfl := Except.ok.inj h
    exact .play s rest
  | _ => cases hscenery

/-- Apart from scenery and dialogue no command changes the memory. -/
theorem memory_execute (hscenery : command.isScenery = false)
    (hdialogue : command.isDialogue = false) (h : execute c i rest s command = .ok s') :
    s'.memory = s.memory := by
  cases command with
  | call | background | viewport | foreground | tint | object | clearForeground | clearObject | mask
  | transition | keyFrame | play => cases hscenery
  | revealDuration | say | menu | sleep => cases hdialogue
  | branch b =>
    obtain rfl := Except.ok.inj h
    exact memory_branch s b
  | assign flag op source =>
    obtain rfl := Except.ok.inj h
    exact memory_assign s flag op source
  | random flag max =>
    obtain rfl := Except.ok.inj h
    exact memory_assignRandom s flag max
  | clearFlags =>
    obtain rfl := Except.ok.inj h
    exact memory_foldl (f := fun s (bank : FlagBank) => s.emit (.clearBank bank.name))
      (fun _ _ => rfl) _ s
  | playSound channel file fadein repeats =>
    obtain rfl := Except.ok.inj h
    exact memory_remarkChannel s channel
  | stopSound channel fadeout =>
    obtain rfl := Except.ok.inj h
    exact memory_stopSound s channel fadeout
  | voice file =>
    obtain rfl := Except.ok.inj h
    exact memory_voice s file
  | weather kind limit =>
    obtain rfl := Except.ok.inj h
    exact memory_weather s kind limit
  | screenEffect kind duration magnitude =>
    obtain rfl := Except.ok.inj h
    exact memory_screenEffect s kind duration magnitude
  | _ =>
    obtain rfl := Except.ok.inj h
    rfl

/-- Commands other than those of the scenery leave the stage alone. -/
theorem stage_execute (hscenery : command.isScenery = false)
    (h : execute c i rest s command = .ok s') : s'.stage = s.stage := by
  cases hdialogue : command.isDialogue with
  | false => exact congrArg Memory.stage (memory_execute hscenery hdialogue h)
  | true =>
    cases command with
    | revealDuration value =>
      obtain rfl := Except.ok.inj h
      rfl
    | say => exact congrArg Memory.stage (memory_say h)
    | menu choices => exact congrArg Memory.stage (memory_menu h)
    | sleep ms => exact congrArg Memory.stage (memory_sleep h)
    | _ => cases hdialogue

/-- Commands other than those of dialogue leave what is remembered about it alone. -/
theorem dialogue_execute (hdialogue : command.isDialogue = false)
    (h : execute c i rest s command = .ok s') : Staging s s' := by
  cases hscenery : command.isScenery with
  | false => exact .of_memory_eq (memory_execute hscenery hdialogue h)
  | true => exact staging_execute hscenery h

end Rio.Screenplay
