import Mathlib.Logic.Relation
import Rio.Proofs.Screenplay.Frame
import Rio.Transpile

/-!
# What an instruction can do

Going through an instruction is a sequence of small acts: a statement or a comment is written, a
block opened or closed, something remembered, a label asked for or set, the stage changed or
drawn. `Act c P` is one such act that writes only statements with the property `P`, and

> `execute_acts`: carrying out a command consists of acts that write the statements of its entry in
> the table `Command.writes`, and the texts of hooks;
> `step_acts`: so does a whole step, which may also write labels and the lines around ranges of
> scenes.

What every act preserves is therefore preserved by a step and by a run (`Acts.preserves`), and a
proof about a run says once what each act does to what it is about.

Changes of the stage are told apart by what they change: `Picture.Change`, `Slot.Change` and
`Stage.Change` list them with the flag that asks for the group to be drawn again.
-/

namespace Rio

open Renpy (Statement Remark)

/-! ## Changes of the stage -/

namespace Stage

section Picture

variable {p : Picture} {name : String} {x y tint zoom xpan ypan : Int}

/-! What a change of a picture comes to where it finds what it asks for, and where it does not. -/

/-- A replacement that differs starts anew, without the frames of the old picture. -/
theorem Picture.replace_of_differs (h : p.differs name x y = true) :
    p.replace name x y
      = { p with name, base := (x, y), pos := (x, y), frames := [], dirty := true } :=
  if_pos h

theorem Picture.replace_of_not_differs (h : p.differs name x y = false) : p.replace name x y = p :=
  if_neg (Bool.eq_false_iff.mp h)

theorem Picture.setTint_of_eq (h : p.tint = tint) : p.setTint tint = p :=
  if_pos (beq_iff_eq.mpr h.symm)

/-- Another tint is noted as such, apart from the request for a drawing. -/
theorem Picture.setTint_of_ne (h : p.tint ≠ tint) :
    p.setTint tint = { p with tint, tintChanged := true, dirty := true } :=
  if_neg fun heq => h (beq_iff_eq.mp heq).symm

theorem Picture.setViewport_of_eq (hzoom : p.zoom = zoom) (hpan : p.pan = (xpan, ypan)) :
    p.setViewport zoom xpan ypan = p := by
  unfold setViewport
  rw [hzoom, hpan, beq_self_eq_true, beq_self_eq_true, Bool.and_self, if_pos rfl]

theorem Picture.setViewport_of_ne (h : ¬(p.zoom = zoom ∧ p.pan = (xpan, ypan))) :
    p.setViewport zoom xpan ypan = { p with zoom, pan := (xpan, ypan), dirty := true } := by
  refine if_neg fun heq => h ?_
  rw [Bool.and_eq_true, beq_iff_eq, beq_iff_eq] at heq
  exact ⟨heq.1.symm, heq.2.symm⟩

end Picture

/-- A change of a picture, and whether it asks for the picture to be drawn. A tint alone does
not. -/
inductive Picture.Change : Picture → Picture → Bool → Prop where
  | replace {p : Picture} (name : String) (x y : Int) :
      Change p (p.replace name x y) (p.differs name x y)
  | viewport {p : Picture} (zoom xpan ypan : Int) :
      Change p (p.setViewport zoom xpan ypan) (p.setViewport zoom xpan ypan).dirty
  | tint {p : Picture} (tint : Int) : Change p (p.setTint tint) false
  | frame {p : Picture} (kind : FrameKind) (dx dy ms fade : Int) :
      Change p (p.addFrame kind dx dy ms fade) true

/-- A change of a place that is taken. -/
inductive Slot.Change : Slot → Slot → Bool → Prop where
  | same {slot : Slot} : Change slot slot false
  /-- A change of its picture may take back its removal. -/
  | picture {p p' : Picture} {redraw pending pending' : Bool} :
      p.Change p' redraw → (pending' = true → pending = true) →
      Change ⟨.picture p, pending⟩ ⟨.picture p', pending'⟩ redraw
  | clear {slot : Slot} : Change slot { slot with pendingRemoval := true } true

/-- A place with a picture that has just appeared. -/
def Slot.fresh (name : String) (x y : Int) : Slot :=
  ⟨.picture (.new name x y .screen), false⟩

/-- A change of the stage that draws nothing and brings in nothing drawn elsewhere. -/
inductive Change : Stage → Stage → Prop where
  | newBackground {g : Stage} (name : String) (x y : Int) :
      Change g { g with background := some (.new name x y .image), backgroundRedraw := true }
  | background {g : Stage} {p p' : Picture} {redraw : Bool} :
      g.background = some p → p.Change p' redraw →
      Change g { g with background := some p', backgroundRedraw := g.backgroundRedraw || redraw }
  | newForeground {g : Stage} {index : Nat} (name : String) (x y : Int) :
      g.foreground? index = none →
      Change g { g.setForeground index (.fresh name x y) with foregroundRedraw := true }
  | foreground {g : Stage} {index : Nat} {slot slot' : Slot} {redraw : Bool} :
      g.foreground? index = some slot → slot.Change slot' redraw →
      Change g { g.setForeground index slot' with
        foregroundRedraw := g.foregroundRedraw || redraw }
  | newObject {g : Stage} (name : String) (x y : Int) :
      Change g { g with object := some (.fresh name x y), objectRedraw := true }
  | object {g : Stage} {slot slot' : Slot} {redraw : Bool} :
      g.object = some slot → slot.Change slot' redraw →
      Change g { g with object := some slot', objectRedraw := g.objectRedraw || redraw }
  /-- What is not on the screen; a mask, once set, stays. -/
  | setting {g : Stage} (tint : Int) (mask : Option String) (inSegment : Bool) :
      (g.mask.isSome → mask.isSome) → Change g { g with tint, mask, inSegment }

end Stage

/-- The statements of a drawing. -/
def Renpy.Statement.isCue : Statement → Bool
  | .shot .. | .atl _ | .hide _ => true
  | _ => false

namespace Screenplay

/-! ## Acts -/

/-- One act of a run. What it writes has the property `P`. -/
inductive Act (c : Context) (P : Statement → Prop) : State → State → Prop where
  | emit {s : State} {st : Statement} (hst : P st) (hflat : st.isHeader = false) :
      Act c P s (s.emit st)
  /-- A block that closes empty is given `pass`, so there are blocks only where `pass` may be
  written. -/
  | header {s : State} {st : Statement} (hst : P st) (hpass : P .pass)
      (hheader : st.isHeader = true) : Act c P s (s.header st)
  | remark {s : State} (r : Remark) : Act c P s (s.remark r)
  | close {s : State} : P .pass → Act c P s s.closeScope
  | report {s : State} (message : String) : Act c P s (s.report .trace message)
  /-- What is remembered about dialogue. Who speaks next is told by the voices of the profile
  only. -/
  | remember {s : State} (revealDuration : Int) (inlinedPauses : List Nat) (textSize : Int)
      (nextSpeaker : Option String)
      (hspeaker : c.profile.voiceMatches = [] → nextSpeaker = none ∨ nextSpeaker = s.nextSpeaker) :
      Act c P s { s with revealDuration, inlinedPauses, textSize, nextSpeaker }
  | hold {s : State} {i : Instruction} :
      i ∈ c.instructions → i.mnemonic.isSay → Act c P s { s with held := some i }
  | release {s : State} : Act c P s { s with held := none }
  /-- A jump asks for the label of its goal. -/
  | ask {s : State} {target : Nat} : P (.jump (c.label target)) → Act c P s (jump c s target)
  | place {s : State} {addr : Nat} :
      P (.label (c.label addr)) → P .pass → Act c P s (s.placeLabel c addr)
  /-- Where the open blocks end. -/
  | scope {s : State} (scopeEnds : List Nat) : P .pass → Act c P s { s with scopeEnds }
  | stage {s : State} {g : Stage} : s.stage.Change g → Act c P s { s with stage := g }
  | draw {s : State} : (∀ st, st.isCue → P st) → Act c P s (draw c s).2
  /-- Something drawn elsewhere comes in by a hook of the profile only. -/
  | standIn {s : State} {name : String} {slot : Nat} {reference : String} :
      .standIn slot reference ∈ c.profile.hooks name →
      Act c P s { s with stage := s.stage.setForeground slot ⟨.standIn reference, false⟩ }

/-- Any number of acts. -/
abbrev Acts (c : Context) (P : Statement → Prop) : State → State → Prop :=
  Relation.ReflTransGen (Act c P)

variable {c : Context} {P : Statement → Prop} {s s' t : State}

/-- What every act preserves holds after any number of them. -/
theorem Acts.preserves {I : State → Prop} (h : Acts c P s s')
    (hact : ∀ {s s' : State}, Act c P s s' → I s → I s') (hs : I s) : I s' := by
  induction h with
  | refl => exact hs
  | tail _ hstep ih => exact hact hstep ih

namespace Acts

/-! Each act as a sequence that goes on from acts done before. -/

/-- A statement without a block is one act. -/
theorem emit (h : Acts c P s t) {st : Statement} (hst : P st)
    (hflat : st.isHeader = false) : Acts c P s (t.emit st) :=
  h.tail (.emit hst hflat)

theorem header (h : Acts c P s t) {st : Statement} (hst : P st) (hpass : P .pass)
    (hheader : st.isHeader = true) : Acts c P s (t.header st) :=
  h.tail (.header hst hpass hheader)

theorem remark (h : Acts c P s t) (r : Remark) : Acts c P s (t.remark r) :=
  h.tail (.remark r)

/-- Closing a block may write `pass`, and nothing else. -/
theorem close (h : Acts c P s t) (hpass : P .pass) : Acts c P s t.closeScope :=
  h.tail (.close hpass)

/-- A fold of acts. -/
theorem foldl {α : Type} {f : State → α → State} {xs : List α}
    (hf : ∀ t, ∀ x ∈ xs, Acts c P t (f t x)) (h : Acts c P s t) : Acts c P s (xs.foldl f t) := by
  induction xs generalizing t with
  | nil => exact h
  | cons x xs ih =>
    refine ih (fun t y hy => hf t y (List.mem_cons_of_mem _ hy)) ?_
    exact h.trans (hf t x (List.mem_cons_self ..))

end Acts

/-! ## Flags and dialogue -/

/-- Asking for a flag writes a comment at most. -/
theorem access_acts (flag : Int) (found : FlagAccess) (hint : String → Remark) :
    Acts c P s (s.access flag found hint).2 := by
  cases found with
  | granted reference | excluded => exact .refl
  | hinted reference => exact .single (.remark _)
  | unmapped => exact .single (.remark _)

/-- Looking up what is assigned writes nothing. -/
theorem sourceText_acts (op : Renpy.AssignOp) (source : Source) :
    Acts c P s (sourceText c s op source).2 := by
  cases source with
  | immediate value => exact .refl
  | flag addr => exact access_acts ..
  | through addr => exact access_acts ..

/-- An assignment writes one statement, or none if one of its flags is out of reach. -/
theorem assign_acts (hP : ∀ reference op value, P (.assign reference op value)) (flag : Int)
    (op : Renpy.AssignOp) (source : Source) : Acts c P s (assign c s flag op source) := by
  unfold assign
  dsimp only
  have hsource : Acts c P s (sourceText c s op source).2 := sourceText_acts op source
  refine hsource.trans ?_
  generalize (sourceText c s op source).1 = value?
  generalize (sourceText c s op source).2 = t
  have hflag : Acts c P t (t.access flag (flagAccess c.profile flag) fun r =>
      .hintedAssign r op (value?.getD "<NO_RESULT>")).2 := access_acts ..
  refine hflag.trans ?_
  split
  · exact .refl
  · exact .single (.emit (hP ..) rfl)
  · exact .single (.remark _)

theorem assignRandom_acts (hP : ∀ reference op value, P (.assign reference op value))
    (flag max : Int) : Acts c P s (assignRandom c s flag max) := by
  unfold assignRandom
  cases flagAccess c.profile flag with
  | granted reference => exact .single (.emit (hP ..) rfl)
  | excluded => exact .refl
  | hinted reference => exact .single (.remark _)
  | unmapped => exact .single (.remark _)

/-- A branch is a block, with a comment before it if its flag may not be used. -/
theorem branch_acts (hflag : ∀ reference cmp value, P (.ifFlag reference cmp value))
    (hfalse : P .ifFalse) (hpass : P .pass) (b : Branch) : Acts c P s (branch c s b) := by
  have hclosed : ∀ t, Acts c P s t → Acts c P s
      { (t.remark (.inaccessibleBranch b.flag)).header .ifFalse with
        scopeEnds := b.close :: t.scopeEnds } :=
    fun t ht => ((ht.remark _).header hfalse hpass rfl).tail (.scope _ hpass)
  unfold branch
  cases flagAccess c.profile b.flag with
  | granted reference => exact .tail (.single (.header (hflag ..) hpass rfl)) (.scope _ hpass)
  | excluded => exact hclosed s .refl
  | hinted reference => exact hclosed _ (.single (.remark _))
  | unmapped => exact hclosed _ (.single (.remark _))

/-- A choice is a block with a jump in it. -/
theorem offer_acts (hchoice : ∀ text condition, P (.choice text condition))
    (hjump : ∀ name, P (.jump (.script name))) (hpass : P .pass) (o : MenuOption)
    (found : FlagAccess) : Acts c P s (offer c s o found) := by
  have hshown : ∀ t condition, Acts c P s t → Acts c P s (((t.header
      (.choice (c.dialogue o.text) condition)).emit
      (.jump (.script (c.scriptName o.target)))).closeScope) :=
    fun t _ ht => ((ht.header (hchoice ..) hpass rfl).emit (hjump _) rfl).close hpass
  cases found with
  | granted reference => exact hshown s _ .refl
  | excluded => exact hshown _ _ (.single (.remark _))
  | hinted reference => exact hshown _ _ (.tail (.single (.remark _)) (.remark _))
  | unmapped => exact hshown _ _ (.tail (.single (.remark _)) (.remark _))

/-- Taking over a pause is something to remember. -/
theorem takePause_acts (addr : Nat) : Acts c P s (takePause c s addr).2 := by
  unfold takePause
  split
  · exact .refl
  · split
    · exact .refl
    · exact .single (.remember _ _ _ _ fun _ => .inr rfl)

/-- A line is made up before it is written; meanwhile it may take over a pause. -/
theorem line_acts (addr : Nat) (raw : List UInt8) : Acts c P s (line c s addr raw).2 := by
  have hsize : Acts c P s (lineSize s).2 := by
    unfold lineSize
    split
    · exact .refl
    · split
      · exact .refl
      · split
        · exact .refl
        · exact .single (.remark _)
  unfold line
  dsimp only
  split
  · exact hsize
  · exact hsize.trans (takePause_acts addr)

theorem utter_acts (hsay : ∀ speech, P (.say speech)) (addr : Nat) (u : Utterance) :
    Acts c P s (utter c s addr u) := by
  unfold utter
  dsimp only
  exact ((line_acts addr u.text).emit (hsay _) rfl).tail
    (.remember _ _ _ _ fun _ => .inl rfl)

/-- What is spoken is one statement. -/
theorem speak_acts (hsay : ∀ speech, P (.say speech)) {i : Instruction}
    (h : speak c s i = .ok s') : Acts c P s s' := by
  unfold speak at h
  split at h
  · split at h
    · obtain rfl := Except.ok.inj h
      exact utter_acts hsay ..
    · cases h
  · cases h

/-- The choices of a menu, and the end of its block. -/
theorem choices_acts (hchoice : ∀ text condition, P (.choice text condition))
    (hjump : ∀ name, P (.jump (.script name))) (hpass : P .pass) (choices : List MenuOption)
    (s : State) :
    Acts c P s (choices.foldl (choice c) s).closeScope :=
  (Acts.foldl (fun _ o _ => offer_acts hchoice hjump hpass o _) .refl).close hpass

/-- A menu is a block with the line that waited for it and the choices. -/
theorem menu_acts (hmenu : P .menu) (hsay : ∀ speech, P (.say speech))
    (hchoice : ∀ text condition, P (.choice text condition))
    (hjump : ∀ name, P (.jump (.script name))) (hpass : P .pass) {choices : List MenuOption}
    (h : menu c s choices = .ok s') : Acts c P s s' := by
  unfold menu at h
  dsimp only at h
  have hopen : Acts c P s (s.header .menu) := .single (.header hmenu hpass rfl)
  have hrest : ∀ t, Acts c P t (choices.foldl (choice c) t).closeScope :=
    choices_acts hchoice hjump hpass choices
  split at h
  · next i _ _ =>
    cases hspeak : speak c { s.header .menu with held := none } i with
    | error halt =>
      rw [hspeak] at h
      cases h
    | ok t =>
      rw [hspeak] at h
      obtain rfl := Except.ok.inj h
      exact ((hopen.tail .release).trans (speak_acts hsay hspeak)).trans (hrest t)
  · obtain rfl := Except.ok.inj h
    exact hopen.trans (hrest _)

/-- A pause is written unless a line has taken it over. -/
theorem sleep_acts (hpause : ∀ ms, P (.pause ms)) {i : Instruction} {ms : Option Int}
    (h : sleep s i ms = .ok s') : Acts c P s s' := by
  unfold sleep at h
  split at h
  · obtain rfl := Except.ok.inj h
    exact .tail (.single (.remember _ _ _ _ fun _ => .inr rfl)) (.remark _)
  · split at h
    · obtain rfl := Except.ok.inj h
      exact .single (.emit (hpause _) rfl)
    · cases h

theorem clearFlags_acts (hclear : ∀ name, P (.clearBank name)) : Acts c P s (clearFlags c s) :=
  Acts.foldl (fun _ _ _ => .single (.emit (hclear _) rfl)) .refl

/-! ## Sound and calls -/

theorem remarkChannel_acts (channel : Int) : Acts c P s (remarkChannel s channel) := by
  unfold remarkChannel
  split
  · exact .refl
  · exact .single (.remark _)

/-- Sounds are stopped all at once or in one channel. -/
theorem stopSound_acts (hall : ∀ fadeout, P (.stopAllSounds fadeout))
    (hone : ∀ channel fadeout, P (.stopSound channel fadeout)) (channel : Int)
    (fadeout : Option Int) : Acts c P s (stopSound s channel fadeout) := by
  unfold stopSound
  split
  · exact .single (.emit (hall _) rfl)
  · exact (remarkChannel_acts channel).emit (hone ..) rfl

theorem voice_acts (hvoice : ∀ file, P (.voice file)) (file : List UInt8) :
    Acts c P s (voice c s file) := by
  unfold voice
  dsimp only
  split
  · exact .single (.emit (hvoice _) rfl)
  · next hmatches =>
    refine .tail (.single (.emit (hvoice _) rfl)) (.remember _ _ _ _ fun hnone => ?_)
    exact absurd (List.isEmpty_iff.mpr hnone) hmatches

/-- A call is followed by its hooks: statements to the letter, and pictures that stand in. -/
theorem call_acts (hcall : ∀ l, P (.call l))
    (hhook : ∀ name text, .statement text ∈ c.profile.hooks name → P (.verbatim text))
    (script : List UInt8) : Acts c P s (call c s script) := by
  refine Acts.foldl (fun t action hmem => ?_) (.single (.emit (hcall _) rfl))
  cases action with
  | statement text => exact .single (.emit (hhook _ text hmem) rfl)
  | standIn slot reference => exact .single (.standIn hmem)

/-! ## Scenery -/

/-- A background is replaced in place if there is one. -/
theorem setBackground_acts (name : String) (x y : Int) :
    Acts c P s { s with stage := setBackground s.stage name x y } := by
  unfold setBackground
  dsimp only
  split
  · next p hp =>
    split
    · exact .single (.stage (.background hp (.replace name x y)))
    · exact .single (.stage (.newBackground name x y))
  · exact .single (.stage (.newBackground name x y))

theorem setViewport_acts (zoom xpan ypan : Int) : Acts c P s (setViewport s zoom xpan ypan) := by
  unfold setViewport
  split
  · next p hp => exact .single (.stage (.background hp (.viewport zoom xpan ypan)))
  · exact .single (.remark _)

/-- Something can be replaced only if it is a picture; the replacement takes back its removal. -/
theorem slot_replace_change {slot slot' : Stage.Slot} {name : String} {x y : Int} {changed : Bool}
    (h : slot.replace name x y = (slot', .ok changed)) : slot.Change slot' changed := by
  obtain ⟨figure, pending⟩ := slot
  cases figure with
  | picture p =>
    cases h
    exact .picture (.replace name x y) (by simp)
  | standIn reference => cases h

/-- A foreground is new in its place or changes the one there. -/
theorem putForeground_acts {addr index : Nat} {name : String} {x y : Int}
    (h : putForeground s addr index name x y = .ok s') : Acts c P s s' := by
  unfold putForeground at h
  split at h
  · next hnone =>
    obtain rfl := Except.ok.inj h
    exact .single (.stage (.newForeground name x y hnone))
  · next slot hslot =>
    split at h
    · obtain rfl := Except.ok.inj h
      exact .single (.remark _)
    · cases hreplace : slot.replace name x y with
      | mk slot' result =>
        rw [hreplace] at h
        cases result with
        | error cause => cases h
        | ok changed =>
          obtain rfl := Except.ok.inj h
          exact .single (.stage (.foreground hslot (slot_replace_change hreplace)))

/-- A tint changes a picture and leaves anything else as it is. -/
theorem slot_tint_change (slot : Stage.Slot) (tint : Int) :
    slot.Change { slot with figure := slot.figure.map (·.setTint tint) } false := by
  obtain ⟨figure, pending⟩ := slot
  cases figure with
  | picture p => exact .picture (.tint tint) id
  | standIn reference => exact .same

/-- The tint of the stage, or none, goes to the picture in its place. -/
theorem tintForeground_acts (index : Nat) (untinted : Bool) :
    Acts c P s { s with stage := tintForeground s.stage index untinted } := by
  -- the flag of the group stays as it is
  have htint : ∀ slot, s.stage.foreground? index = some slot → ∀ tint : Int, Acts c P s
      { s with
        stage := s.stage.setForeground index
          { slot with figure := slot.figure.map (·.setTint tint) } } := by
    intro slot hslot tint
    have h := Stage.Change.foreground hslot (slot_tint_change slot tint)
    rw [Bool.or_false] at h
    exact .single (.stage h)
  unfold tintForeground
  split
  · exact .refl
  · next slot hslot =>
    split
    · exact htint slot hslot 0
    · split
      · exact .refl
      · exact htint slot hslot s.stage.tint

/-- A foreground is put into its place and tinted there. -/
theorem showForeground_acts {addr index : Nat} {name : String} {x y : Int} {untinted : Bool}
    (h : showForeground s addr index name x y untinted = .ok s') : Acts c P s s' := by
  unfold showForeground at h
  cases hput : putForeground s addr index name x y with
  | error halt =>
    rw [hput] at h
    cases h
  | ok t =>
    rw [hput] at h
    obtain rfl := Except.ok.inj h
    exact (putForeground_acts hput).trans (tintForeground_acts index untinted)

/-- An object of the same name is moved, any other one is new. -/
theorem showObject_acts {addr : Nat} {name : String} {x y : Int}
    (h : showObject s addr name x y = .ok s') : Acts c P s s' := by
  unfold showObject at h
  dsimp only at h
  split at h
  · next slot hslot =>
    split at h
    · cases hreplace : slot.replace name x y with
      | mk slot' result =>
        rw [hreplace] at h
        cases result with
        | error cause => cases h
        | ok changed =>
          obtain rfl := Except.ok.inj h
          exact .single (.stage (.object hslot (slot_replace_change hreplace)))
    · obtain rfl := Except.ok.inj h
      exact .single (.stage (.newObject name x y))
  · obtain rfl := Except.ok.inj h
    exact .single (.stage (.newObject name x y))

/-- What a number that may be no place finds is in that place. -/
theorem foreground?_of_signed {g : Stage} {index : Int} {slot : Stage.Slot}
    (h : (if 0 ≤ index then g.foreground? index.toNat else none) = some slot) :
    g.foreground? index.toNat = some slot := by
  split at h
  · exact h
  · cases h

/-- A place is marked for removal and cleared with the next drawing. -/
theorem clearForeground_acts (index : Int) : Acts c P s (clearForeground s index) := by
  unfold clearForeground
  dsimp only
  split
  · next slot hslot =>
    have h := Stage.Change.foreground (foreground?_of_signed hslot) .clear
    rw [Bool.or_true] at h
    exact .tail (.single (.remark _)) (.stage h)
  · exact .single (.remark _)

theorem clearObject_acts : Acts c P s (clearObject s) := by
  unfold clearObject
  dsimp only
  split
  · next slot hslot =>
    have h := Stage.Change.object hslot .clear
    rw [Bool.or_true] at h
    exact .tail (.single (.remark _)) (.stage h)
  · exact .single (.remark _)

theorem setMask_acts (mask : String) : Acts c P s (setMask s mask) :=
  .tail (.single (.remark _)) (.stage (.setting _ (some mask) _ fun _ => rfl))

theorem weather_acts (hhide : ∀ layer, P (.hideWeather layer))
    (hshow : ∀ limit layer, P (.showRain limit layer)) (kind limit : Int) :
    Acts c P s (weather c s kind limit) := by
  unfold weather
  split
  · exact .single (.emit (hhide _) rfl)
  · split
    · exact .single (.emit (hshow ..) rfl)
    · exact .single (.remark _)

/-- A shake without end is a block of its own. -/
theorem screenEffect_acts (hlayer : ∀ timed, P (.showMaster timed))
    (hdriver : ∀ magnitude, P (.shakeDriver magnitude))
    (hshake : ∀ duration magnitude, P (.screenShake duration magnitude)) (hpass : P .pass)
    (kind duration magnitude : Int) : Acts c P s (screenEffect s kind duration magnitude) := by
  unfold screenEffect
  split
  · exact .single (.emit (hlayer _) rfl)
  · split
    · split
      · exact ((Acts.header .refl (hlayer true) hpass rfl).emit (hdriver _) rfl).close hpass
      · exact .single (.emit (hshake ..) rfl)
    · exact .single (.remark _)

/-! ## Transitions and animation -/

/-- The effect of a transition is written as it is, or it is a dissolve with the reason before
it. -/
theorem showEffect_cases {addr : Nat} {method : Method} {ms : Int}
    (h : showEffect c s addr method ms = .ok s') :
    (∃ effect, s' = s.emit (.effect effect)) ∨
      s' = dissolve s (transitionTime ms) (.unknownTransition method.name (transitionTime ms)) ∨
      s' = dissolve s (transitionTime ms) (.needsGfxNext method.name) := by
  unfold showEffect at h
  dsimp only at h
  cases method with
  | code n => exact .inr (.inl (Except.ok.inj h).symm)
  | named t =>
    dsimp only at h
    split at h
    · split at h
      · exact .inl ⟨_, (Except.ok.inj h).symm⟩
      · cases h
    · split at h
      · split at h
        · exact .inl ⟨_, (Except.ok.inj h).symm⟩
        · exact .inr (.inr (Except.ok.inj h).symm)
      · split at h
        · exact .inl ⟨_, (Except.ok.inj h).symm⟩
        · exact .inr (.inl (Except.ok.inj h).symm)

/-- Every effect is one statement, in place of a missing one a dissolve. -/
theorem showEffect_acts (heffect : ∀ expression, P (.effect expression)) {addr : Nat}
    {method : Method} {ms : Int} (h : showEffect c s addr method ms = .ok s') : Acts c P s s' := by
  have hdissolve : ∀ time r, Acts c P s (dissolve s time r) :=
    fun _ _ => .tail (.single (.remark _)) (.emit (heffect _) rfl)
  rcases showEffect_cases h with ⟨effect, rfl⟩ | rfl | rfl
  · exact .single (.emit (heffect _) rfl)
  · exact hdissolve ..
  · exact hdissolve ..

/-- A transition writes the cues of the drawing, then its effect. -/
theorem transition_acts (hcue : ∀ st, st.isCue → P st)
    (heffect : ∀ expression, P (.effect expression)) {addr : Nat} {method : Method} {ms : Int}
    (h : transition c s addr method ms = .ok s') : Acts c P s s' := by
  have hdraw : Acts c P s (draw c s).2 := .single (.draw hcue)
  unfold transition at h
  dsimp only at h
  split at h
  · obtain rfl := Except.ok.inj h
    exact hdraw
  · exact hdraw.trans (showEffect_acts heffect h)

theorem moveBackground_acts (kind : Stage.FrameKind) (m : Motion) :
    Acts c P s (moveBackground s kind m) := by
  unfold moveBackground
  split
  · next p hp =>
    have h := Stage.Change.background hp (.frame kind m.dx m.dy m.ms m.fade)
    rw [Bool.or_true] at h
    exact .single (.stage h)
  · exact .single (.remark _)

/-- A motion adds a key frame to the picture in its place. -/
theorem moveForeground_acts {addr : Nat} {kind : Stage.FrameKind} {index : Int} {m : Motion}
    (h : moveForeground s addr kind index m = .ok s') : Acts c P s s' := by
  unfold moveForeground at h
  split at h
  · obtain rfl := Except.ok.inj h
    exact .single (.remark _)
  · next slot hslot =>
    obtain ⟨figure, pending⟩ := slot
    cases figure with
    | picture p =>
      obtain rfl := Except.ok.inj h
      have h := Stage.Change.foreground (foreground?_of_signed hslot)
        (.picture (.frame kind m.dx m.dy m.ms m.fade) id)
      rw [Bool.or_true] at h
      exact .single (.stage h)
    | standIn reference => cases h

/-- The target of a motion decides what is moved. -/
theorem addMotion_acts {addr : Nat} {m : Motion} (h : addMotion s addr m = .ok s') :
    Acts c P s s' := by
  unfold addMotion at h
  split at h
  · obtain rfl := Except.ok.inj h
    exact moveBackground_acts ..
  · split at h
    · obtain rfl := Except.ok.inj h
      exact moveBackground_acts ..
    · split at h
      · exact moveForeground_acts h
      · exact moveForeground_acts h

/-- A key frame that may not be an animation is only remarked on. -/
theorem keyFrame_acts {i : Instruction} {motion : Option Motion}
    (h : keyFrame c s i motion = .ok s') : Acts c P s s' := by
  unfold keyFrame at h
  split at h
  · obtain rfl := Except.ok.inj h
    exact .single (.remark _)
  · split at h
    · exact addMotion_acts h
    · cases h

theorem segment_act (s : State) (inSegment : Bool) :
    Act c P s { s with stage := { s.stage with inSegment } } :=
  .stage (.setting s.stage.tint s.stage.mask inSegment id)

/-- A play draws only at the end of an animation. -/
theorem play_acts {rest : List Instruction}
    (hcue : animationEnds rest → ∀ st, st.isCue → P st) : Acts c P s (play c s rest) := by
  unfold play
  split
  · next hends => exact .tail (.single (segment_act s false)) (.draw (hcue hends))
  · exact .tail (.single (.remark _)) (segment_act _ true)

/-! ## Commands -/

/-- The statements that a command may become, the texts of hooks aside. -/
def Command.writes : Command → Statement → Bool
  | .branch _, .ifFlag .. | .branch _, .ifFalse | .branch _, .pass
  | .jump _, .jump (.address ..) | .goto _, .jump (.script _) | .call _, .call _ | .ret, .ret
  | .menu _, .menu | .menu _, .say _ | .menu _, .choice .. | .menu _, .jump (.script _)
  | .menu _, .pass
  | .assign .., .assign .. | .random .., .assign .. | .clearFlags, .clearBank _
  | .say, .say _ | .extend _, .extend _ | .sleep _, .pause _ | .eventName _, .saveName _
  | .playMusic .., .playMusic .. | .stopMusic _, .stopMusic _ | .playSound .., .playSound ..
  | .stopSound .., .stopSound .. | .stopSound .., .stopAllSounds _ | .voice _, .voice _
  | .sideImage _, .showSide _ | .hideSideImage, .hideSide
  | .weather .., .hideWeather _ | .weather .., .showRain ..
  | .screenEffect .., .showMaster _ | .screenEffect .., .shakeDriver _
  | .screenEffect .., .screenShake .. | .screenEffect .., .pass
  | .clearScreenEffect, .showMaster _ | .video _, .movie _
  | .transition .., .effect _ => true
  | .transition .., st | .play, st => st.isCue
  | _, _ => false

theorem Command.writes_transition (method : Method) (ms : Int) {st : Statement} (h : st.isCue) :
    (Command.transition method ms).writes st := by
  cases st with
  | shot | atl | hide => rfl
  | _ => cases h

theorem Command.writes_play {st : Statement} (h : st.isCue) : Command.play.writes st := by
  cases st with
  | shot | atl | hide => rfl
  | _ => cases h

/-- Carrying out a command consists of acts, and they write what the table says. -/
theorem execute_acts {i : Instruction} {rest : List Instruction} {command : Command}
    (hwrites : ∀ st, command.writes st → P st)
    (hhook : ∀ name text, .statement text ∈ c.profile.hooks name → P (.verbatim text))
    (h : execute c i rest s command = .ok s') : Acts c P s s' := by
  -- `hwrites _ rfl` is the same fact in each case: a command may write what it writes
  cases command with
  | branch b =>
    obtain rfl := Except.ok.inj h
    exact branch_acts (fun _ _ _ => hwrites _ rfl) (hwrites _ rfl) (hwrites _ rfl) b
  | jump target =>
    obtain rfl := Except.ok.inj h
    exact .single (.ask (hwrites _ rfl))
  | goto script =>
    obtain rfl := Except.ok.inj h
    exact .single (.emit (hwrites _ rfl) rfl)
  | call script =>
    obtain rfl := Except.ok.inj h
    exact call_acts (fun _ => hwrites _ rfl) hhook script
  | ret =>
    obtain rfl := Except.ok.inj h
    exact .single (.emit (hwrites _ rfl) rfl)
  | menu choices =>
    exact menu_acts (hwrites _ rfl) (fun _ => hwrites _ rfl) (fun _ _ => hwrites _ rfl)
      (fun _ => hwrites _ rfl) (hwrites _ rfl) h
  | nothing =>
    obtain rfl := Except.ok.inj h
    exact .refl
  | revealDuration value =>
    obtain rfl := Except.ok.inj h
    exact .tail (.single (.remember _ _ _ _ fun _ => .inr rfl)) (.remark _)
  | revealFromFlag flag =>
    obtain rfl := Except.ok.inj h
    exact .single (.remark _)
  | assign flag op source =>
    obtain rfl := Except.ok.inj h
    exact assign_acts (fun _ _ _ => hwrites _ rfl) flag op source
  | random flag max =>
    obtain rfl := Except.ok.inj h
    exact assignRandom_acts (fun _ _ _ => hwrites _ rfl) flag max
  | clearFlags =>
    obtain rfl := Except.ok.inj h
    exact clearFlags_acts fun _ => hwrites _ rfl
  | textSize size =>
    obtain rfl := Except.ok.inj h
    exact .single (.remember _ _ _ _ fun _ => .inr rfl)
  | say =>
    change say c s i rest = .ok s' at h
    unfold say at h
    split at h
    · obtain rfl := Except.ok.inj h
      exact .single (.remark _)
    · exact speak_acts (fun _ => hwrites _ rfl) h
  | extend text =>
    obtain rfl := Except.ok.inj h
    exact .single (.emit (hwrites _ rfl) rfl)
  | sleep ms => exact sleep_acts (fun _ => hwrites _ rfl) h
  | eventName name =>
    obtain rfl := Except.ok.inj h
    exact .single (.emit (hwrites _ rfl) rfl)
  | playMusic file fadein =>
    obtain rfl := Except.ok.inj h
    exact .single (.emit (hwrites _ rfl) rfl)
  | stopMusic fadeout =>
    obtain rfl := Except.ok.inj h
    exact .single (.emit (hwrites _ rfl) rfl)
  | playSound channel file fadein repeats =>
    obtain rfl := Except.ok.inj h
    exact (remarkChannel_acts _).emit (hwrites _ rfl) rfl
  | playNowhere =>
    obtain rfl := Except.ok.inj h
    exact .single (.remark _)
  | stopSound channel fadeout =>
    obtain rfl := Except.ok.inj h
    exact stopSound_acts (fun _ => hwrites _ rfl) (fun _ _ => hwrites _ rfl) channel fadeout
  | voice file =>
    obtain rfl := Except.ok.inj h
    exact voice_acts (fun _ => hwrites _ rfl) file
  | background name x y =>
    obtain rfl := Except.ok.inj h
    exact setBackground_acts ..
  | viewport zoom xpan ypan =>
    obtain rfl := Except.ok.inj h
    exact setViewport_acts ..
  | foreground index name x y untinted => exact showForeground_acts h
  | tint index =>
    obtain rfl := Except.ok.inj h
    exact .single (.stage (.setting index s.stage.mask s.stage.inSegment id))
  | object name x y => exact showObject_acts h
  | clearForeground index =>
    obtain rfl := Except.ok.inj h
    exact clearForeground_acts index
  | clearObject =>
    obtain rfl := Except.ok.inj h
    exact clearObject_acts
  | sideImage name =>
    obtain rfl := Except.ok.inj h
    exact .single (.emit (hwrites _ rfl) rfl)
  | hideSideImage =>
    obtain rfl := Except.ok.inj h
    exact .single (.emit (hwrites _ rfl) rfl)
  | mask name =>
    obtain rfl := Except.ok.inj h
    exact setMask_acts _
  | weather kind limit =>
    obtain rfl := Except.ok.inj h
    exact weather_acts (fun _ => hwrites _ rfl) (fun _ _ => hwrites _ rfl) kind limit
  | screenEffect kind duration magnitude =>
    obtain rfl := Except.ok.inj h
    exact screenEffect_acts (fun _ => hwrites _ rfl) (fun _ => hwrites _ rfl)
      (fun _ _ => hwrites _ rfl) (hwrites _ rfl) ..
  | clearScreenEffect =>
    obtain rfl := Except.ok.inj h
    exact .single (.emit (hwrites _ rfl) rfl)
  | video file =>
    obtain rfl := Except.ok.inj h
    exact .single (.emit (hwrites _ rfl) rfl)
  | transition method ms =>
    exact transition_acts (fun st hst => hwrites st (Command.writes_transition method ms hst))
      (fun _ => hwrites _ rfl) h
  | keyFrame motion => exact keyFrame_acts h
  | play =>
    obtain rfl := Except.ok.inj h
    exact play_acts fun _ st hst => hwrites st (Command.writes_play hst)

/-! ## Steps -/

/-- Each branch that ends closes one block. -/
theorem closeBranches_acts (hpass : P .pass) (addr : Nat) : Acts c P s (s.closeBranches addr) :=
  .tail (Acts.foldl (fun _ _ _ => .single (.close hpass)) .refl) (.scope _ hpass)

/-- The statements at the ends of a range of scenes. -/
def isSkipLine : Statement → Bool
  | .ifNotPersistent _ | .blackScene | .pause _ | .jump (.skipEnd ..) | .label (.skipEnd ..) => true
  | .pass => true
  | _ => false

/-- Lines around a range of scenes are written only if the profile asks for them. -/
theorem placeSkipMark_acts (hskip : c.profile.adultSkip.enabled → ∀ st, isSkipLine st → P st)
    (addr : Nat) : Acts c P s (s.placeSkipMark c addr) := by
  by_cases henabled : c.profile.adultSkip.enabled
  · have hP := hskip henabled
    unfold State.placeSkipMark
    split
    · exact .refl
    · next index insertTransition stopScript _ =>
      have hguarded : Acts c P s ((s.remark (.skipStart index)).header
          (.ifNotPersistent c.profile.adultSkip.variableName)) :=
        (Acts.remark .refl _).header (hP _ rfl) (hP _ rfl) rfl
      dsimp only
      split
      · exact (((hguarded.emit (hP _ rfl) rfl).emit (hP _ rfl) rfl).emit (hP _ rfl) rfl).close
          (hP _ rfl)
      · exact (hguarded.emit (hP _ rfl) rfl).close (hP _ rfl)
    · exact ((Acts.close .refl (hP _ rfl)).remark _).header (hP _ rfl) (hP _ rfl) rfl
  · rw [placeSkipMark_of_disabled (Bool.not_eq_true _ ▸ henabled)]

/-- An announcement is a report, and a comment if the profile asks for it. -/
theorem announce_acts (i : Instruction) : Acts c P s (announce c s i) := by
  unfold announce
  dsimp only
  split
  · exact .tail (.single (.report _)) (.remark _)
  · exact .single (.report _)

/-- The state in which the command of an instruction is carried out. -/
def State.arrive (s : State) (c : Context) (i : Instruction) (rest : List Instruction) : State :=
  let s := ((s.placeSkipMark c i.addr).closeBranches i.addr).placeLabel c i.addr
  if waitsForMenu c i rest then { s with held := some i } else s

/-- What a step comes to that does not halt. -/
inductive Stepped (c : Context) (s : State) (i : Instruction) (rest : List Instruction) :
    State → Prop where
  | ending : i.mnemonic = .endOfStream →
      Stepped c s i rest ((s.closeBranches i.addr).placeLabel c i.addr)
  | unhandled : i.mnemonic ≠ .endOfStream → Reading.ofInstruction i = .unhandled →
      Stepped c s i rest ((s.arrive c i rest).remark
        (.unhandled (i.listing c.profile.charset c.profile.readers)))
  | command {command : Command} {s' : State} : i.mnemonic ≠ .endOfStream →
      Reading.ofInstruction i = .command command →
      execute c i rest (announce c (s.arrive c i rest) i) command = .ok s' → Stepped c s i rest s'

/-- The marker of the end has no meaning of its own. -/
theorem ofInstruction_of_endOfStream {i : Instruction} (h : i.mnemonic = .endOfStream) :
    Reading.ofInstruction i = .unhandled := by
  simp [Reading.ofInstruction, h]

/-- Before the end every step goes the same way. -/
theorem step_of_ne_end {i : Instruction} (hend : i.mnemonic ≠ .endOfStream)
    (rest : List Instruction) : step c s i rest = dispatch c (s.arrive c i rest) i rest := by
  unfold step
  rw [if_neg (by simpa using hend)]
  rfl

/-- An instruction with a command is announced, and its command carried out. -/
theorem step_of_reading {i : Instruction} {command : Command}
    (hread : Reading.ofInstruction i = .command command) (s : State) (rest : List Instruction) :
    step c s i rest = execute c i rest (announce c (s.arrive c i rest) i) command := by
  have hend : i.mnemonic ≠ .endOfStream := by
    intro hend
    rw [ofInstruction_of_endOfStream hend] at hread
    cases hread
  rw [step_of_ne_end hend, dispatch, hread]

/-- A step halts where the operands of its instruction do not fit, or where its command does. -/
theorem step_error_cases {i : Instruction} {rest : List Instruction} {halt : Halt}
    (h : step c s i rest = .error halt) :
    (Reading.ofInstruction i = .malformed ∧
      halt = ⟨.operands i.addr i.mnemonic, announce c (s.arrive c i rest) i⟩) ∨
    ∃ command, Reading.ofInstruction i = .command command ∧
      execute c i rest (announce c (s.arrive c i rest) i) command = .error halt := by
  have hend : i.mnemonic ≠ .endOfStream := by
    intro hend
    rw [step, if_pos (by simp [hend])] at h
    cases h
  rw [step_of_ne_end hend, dispatch] at h
  cases hread : Reading.ofInstruction i with
  | unhandled =>
    rw [hread] at h
    cases h
  | malformed =>
    rw [hread] at h
    exact .inl ⟨rfl, (Except.error.inj h).symm⟩
  | command command =>
    rw [hread] at h
    exact .inr ⟨command, rfl, h⟩

/-- A step that succeeds is one of the ways in which steps succeed. -/
theorem stepped_of_ok {i : Instruction} {rest : List Instruction}
    (h : step c s i rest = .ok s') : Stepped c s i rest s' := by
  by_cases hend : i.mnemonic = .endOfStream
  · unfold step at h
    rw [if_pos (by simp [hend])] at h
    obtain rfl := Except.ok.inj h
    exact .ending hend
  · rw [step_of_ne_end hend] at h
    unfold dispatch at h
    split at h
    · next hread =>
      obtain rfl := Except.ok.inj h
      exact .unhandled hend hread
    · cases h
    · next command hread => exact .command hend hread h

/-- The statements that may come before the command of an instruction. -/
structure AllowedBefore (c : Context) (P : Statement → Prop) : Prop where
  pass : P .pass
  skip : c.profile.adultSkip.enabled → ∀ st, isSkipLine st → P st
  label : ∀ addr, P (.label (c.label addr))

/-- The statements that a run may write. -/
structure Allowed (c : Context) (P : Statement → Prop) : Prop extends AllowedBefore c P where
  command : ∀ (command : Command) st, command.writes st → P st
  hook : ∀ name text, .statement text ∈ c.profile.hooks name → P (.verbatim text)

theorem allowed_all (c : Context) : Allowed c fun _ => True :=
  ⟨⟨trivial, fun _ _ _ => trivial, fun _ => trivial⟩, fun _ _ _ => trivial, fun _ _ _ => trivial⟩

/-- Arriving at an instruction consists of acts. -/
theorem arrive_acts (hP : AllowedBefore c P) {i : Instruction} (hi : i ∈ c.instructions)
    (rest : List Instruction) : Acts c P s (s.arrive c i rest) := by
  have hreached : Acts c P s
      (((s.placeSkipMark c i.addr).closeBranches i.addr).placeLabel c i.addr) :=
    .tail ((placeSkipMark_acts hP.skip _).trans (closeBranches_acts hP.pass _))
      (.place (hP.label _) hP.pass)
  unfold State.arrive
  dsimp only
  split
  · next hwaits =>
    have hsay : i.mnemonic.isSay := by
      simp only [waitsForMenu, Bool.and_eq_true] at hwaits
      exact hwaits.1.2
    exact hreached.tail (.hold hi hsay)
  · exact hreached

/-- So does all that comes before a command. -/
theorem announce_arrive_acts (hP : AllowedBefore c P) {i : Instruction}
    (hi : i ∈ c.instructions) (rest : List Instruction) :
    Acts c P s (announce c (s.arrive c i rest) i) :=
  (arrive_acts hP hi rest).trans (announce_acts i)

/-- A step consists of acts. -/
theorem step_acts (hP : Allowed c P) {i : Instruction} (hi : i ∈ c.instructions)
    {rest : List Instruction} (h : step c s i rest = .ok s') : Acts c P s s' := by
  have hbefore := hP.toAllowedBefore
  cases stepped_of_ok h with
  | ending hend => exact (closeBranches_acts hP.pass _).tail (.place (hP.label _) hP.pass)
  | unhandled hend hread => exact (arrive_acts hbefore hi rest).remark _
  | command hend hread hexec =>
    exact (announce_arrive_acts hbefore hi rest).trans
      (execute_acts (hP.command _) hP.hook hexec)

/-! ## Runs -/

/-- What every step through the instructions `l` keeps holds at the end, and where the run halts.
The property may depend on the instructions that were gone through. -/
theorem runFrom_induction {l : List Instruction} {I : List Instruction → State → Prop}
    (hstep : ∀ before i rest s s', before ++ i :: rest = l → I before s →
      step c s i rest = .ok s' → I (before ++ [i]) s') :
    ∀ (rest before : List Instruction) (s : State) (index : Nat), before ++ rest = l → I before s →
      (∀ s', runFrom c s index rest = .ok s' → I l s') ∧
        ∀ stop halt, runFrom c s index rest = .error (stop, halt) →
          ∃ before i rest s, before ++ i :: rest = l ∧ I before s ∧ step c s i rest = .error halt
  | [], before, s, index, hl, hs => by
    rw [List.append_nil] at hl
    subst hl
    refine ⟨fun s' h => ?_, fun stop halt h => (by cases h)⟩
    obtain rfl := Except.ok.inj h
    exact hs
  | i :: rest, before, s, index, hl, hs => by
    unfold runFrom
    cases hi : step c s i rest with
    | error halt =>
      refine ⟨fun s' h => (by cases h), fun stop halt' h => ?_⟩
      cases h
      exact ⟨before, i, rest, s, hl, hs, hi⟩
    | ok t =>
      have hnext : (before ++ [i]) ++ rest = l := by
        rw [List.append_assoc]
        exact hl
      exact runFrom_induction hstep rest (before ++ [i]) t (index + 1) hnext
        (hstep before i rest s t hl hs hi)

/-- A complete screenplay comes from a run to the end. -/
theorem exists_run_of_isComplete {name : String} {l : List Instruction} {graph : BlockGraph}
    {p : Profile} (h : (ofInstructions name l graph p).isComplete = true) :
    ∃ s, runFrom ⟨p, Unicode.toUpper name, l, graph⟩
      (start ⟨p, Unicode.toUpper name, l, graph⟩) 0 l = .ok s ∧
      (ofInstructions name l graph p).document = s.document.closeAll := by
  unfold ofInstructions at h ⊢
  dsimp only at h ⊢
  split at h
  · next s hrun => exact ⟨s, hrun, rfl⟩
  · cases h

end Screenplay

/-- What is fixed while a compiled script is gone through. -/
def scriptContext (name : String) (script : List UInt8) (profile : Profile) : Screenplay.Context :=
  let instructions := Bytecode.decode profile.version true script
  ⟨profile, Unicode.toUpper name, instructions, BlockGraph.build instructions⟩

/-- The run through a compiled script. -/
def scriptRun (name : String) (script : List UInt8) (profile : Profile) :
    Except (Nat × Screenplay.Halt) Screenplay.State :=
  let c := scriptContext name script profile
  Screenplay.runFrom c (Screenplay.start c) 0 c.instructions

/-- A run to the end closes the blocks that are still open. -/
theorem transpile_of_ok {name : String} {script : List UInt8} {profile : Profile}
    {s : Screenplay.State} (h : scriptRun name script profile = .ok s) :
    (transpile name script profile).fault = none ∧
      (transpile name script profile).document = s.document.closeAll := by
  unfold transpile Screenplay.ofInstructions
  dsimp only
  split
  · next heq =>
    obtain rfl := Except.ok.inj (h.symm.trans heq)
    exact ⟨rfl, rfl⟩
  · next heq => cases h.symm.trans heq

/-- A run that halts leaves them open, and tells that the script is incomplete. -/
theorem transpile_of_error {name : String} {script : List UInt8} {profile : Profile} {index : Nat}
    {halt : Screenplay.Halt} (h : scriptRun name script profile = .error (index, halt)) :
    (transpile name script profile).fault = some halt.fault ∧
      (transpile name script profile).document
        = (halt.state.document.comment .interrupted).statement .reportIncomplete := by
  unfold transpile Screenplay.ofInstructions
  dsimp only
  split
  · next heq => cases h.symm.trans heq
  · next heq =>
    obtain ⟨rfl, rfl⟩ := Prod.mk.inj (Except.error.inj (h.symm.trans heq))
    exact ⟨rfl, rfl⟩

/-- A script is complete only if its run came to the end. -/
theorem exists_scriptRun_of_isComplete {name : String} {script : List UInt8} {profile : Profile}
    (h : (transpile name script profile).isComplete = true) :
    ∃ s, scriptRun name script profile = .ok s := by
  obtain ⟨s, hrun, -⟩ := Screenplay.exists_run_of_isComplete h
  exact ⟨s, hrun⟩

end Rio
