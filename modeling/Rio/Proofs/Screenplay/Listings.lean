import Rio.Proofs.Screenplay.Remarks
import Rio.Proofs.Screenplay.SkipGuards

/-!
# Listings change nothing else

A profile may ask for the listing of each instruction in front of what it becomes. `hush` takes
the listings out of a document, and of a state that holds it. No command looks at what was written
before it, so all that a run does commutes with it:

> `execute_hush`: a command does the same to a state without its listings, whether it halts or not;
> `runFrom_hush`: so does a run of a context that asks for no listings;
> `listings_of_outcome`: what is taken out are the listings of the instructions that were dealt
> with, in order.
-/

namespace Rio.Renpy

/-- The line of a comment that lists an instruction. -/
def Remark.listing? : Remark → Option String
  | .listing line => some line
  | _ => none

def Remark.isListing (r : Remark) : Bool :=
  r.listing?.isSome

/-- Whether a line is a comment that lists an instruction. -/
def Entry.isListing (e : Entry) : Bool :=
  match e.content with
  | .comment r => r.isListing
  | .statement _ => false

namespace Document

variable {d : Document}

/-- A document without the listings. -/
def hush (d : Document) : Document :=
  { d with entries := d.entries.filter (!·.isListing) }

@[simp] theorem hush_statement (d : Document) (st : Statement) :
    (d.statement st).hush = d.hush.statement st := by
  simp [hush, statement, push, depth, Entry.isListing]

/-- A comment that is no listing stays. -/
theorem hush_comment (d : Document) {r : Remark} (h : r.isListing = false) :
    (d.comment r).hush = d.hush.comment r := by
  simp [hush, comment, push, depth, Entry.isListing, h]

/-- Nothing is left of a listing. -/
theorem hush_listing (d : Document) (line : String) :
    (d.comment (.listing line)).hush = d.hush := by
  simp [hush, comment, push, Entry.isListing, Remark.isListing, Remark.listing?]

@[simp] theorem hush_header (d : Document) (st : Statement) :
    (d.header st).hush = d.hush.header st :=
  congrArg openScope (d.hush_statement st)

/-- Whether a block needs a `pass` depends on its statements, and those stay. -/
@[simp] theorem hush_closeScope (d : Document) : d.closeScope.hush = d.hush.closeScope := by
  obtain ⟨entries, scopes⟩ := d
  cases scopes with
  | nil => rfl
  | cons filled outer =>
    cases filled with
    | true => rfl
    | false =>
      have hpass := (Document.mk entries (false :: outer)).hush_statement .pass
      exact congrArg (fun e : Document => { e with scopes := outer }) hpass

/-- A shot is written without a look at what is there. -/
@[simp] theorem hush_shot (d : Document) (s : Shot) (lines : List AtlLine) :
    (d.shot s lines).hush = d.hush.shot s lines := by
  unfold shot
  split
  · exact d.hush_statement _
  · rw [hush_closeScope, ← hush_header]
    have hlines : lines.foldl (fun d line => d.statement (.atl line)) (d.header (.shot s true)).hush
        = (lines.foldl (fun d line => d.statement (.atl line)) (d.header (.shot s true))).hush :=
      List.foldl_hom hush fun e line => (e.hush_statement (.atl line)).symm
    exact congrArg closeScope hlines.symm

/-- The listings of a document, in order. -/
def listings (d : Document) : List String :=
  d.remarks.filterMap Remark.listing?

/-- The blocks that are open are the same, so they are closed alike. -/
theorem hush_closeAll (d : Document) : d.closeAll.hush = d.hush.closeAll :=
  (List.foldl_hom hush (l := d.scopes) fun e _ => e.hush_closeScope.symm).symm

end Document

end Rio.Renpy

namespace Rio.Screenplay

open Renpy (Document Remark Statement)

variable {c : Context} {s : State} {i : Instruction} {rest : List Instruction}

/-- A state whose document has no listings. -/
def State.hush (s : State) : State :=
  { s with document := s.document.hush }

/-- A step that ends in such a state. -/
def Step.hush : Step → Step
  | .ok s => .ok s.hush
  | .error halt => .error { halt with state := halt.state.hush }

namespace State

@[simp] theorem hush_emit (s : State) (st : Statement) : (s.emit st).hush = s.hush.emit st :=
  congrArg (fun d => { s with document := d }) (s.document.hush_statement st)

@[simp] theorem hush_header (s : State) (st : Statement) : (s.header st).hush = s.hush.header st :=
  congrArg (fun d => { s with document := d }) (s.document.hush_header st)

/-- No remark of a command is a listing, so it is found again. -/
theorem hush_remark (s : State) {r : Remark} (h : r.isListing = false) :
    (s.remark r).hush = s.hush.remark r :=
  congrArg (fun d => { s with document := d }) (s.document.hush_comment h)

@[simp] theorem hush_closeScope (s : State) : s.closeScope.hush = s.hush.closeScope :=
  congrArg (fun d => { s.closeScope with document := d }) s.document.hush_closeScope

@[simp] theorem stage_hush (s : State) : s.hush.stage = s.stage := rfl

/-- What a flag is found to be does not depend on the document. -/
theorem access_hush {hint : String → Remark} (h : ∀ reference, (hint reference).isListing = false)
    (s : State) (flag : Int) (found : FlagAccess) :
    s.hush.access flag found hint
      = ((s.access flag found hint).1, (s.access flag found hint).2.hush) := by
  cases found with
  | granted reference | excluded => rfl
  | hinted reference => exact congrArg (Prod.mk none) (s.hush_remark (h reference)).symm
  | unmapped => exact congrArg (Prod.mk none) (s.hush_remark rfl).symm

end State

/-! ## Control flow -/

/-- Branches end at the same addresses. -/
theorem closeBranches_hush (s : State) (addr : Nat) :
    s.hush.closeBranches addr = (s.closeBranches addr).hush := by
  have hclosed : (s.scopeEnds.takeWhile (· == addr)).foldl (fun s _ => s.closeScope) s.hush
      = ((s.scopeEnds.takeWhile (· == addr)).foldl (fun s _ => s.closeScope) s).hush :=
    List.foldl_hom State.hush fun t _ => t.hush_closeScope.symm
  exact congrArg (fun t : State => { t with scopeEnds := s.scopeEnds.dropWhile (· == addr) })
    hclosed

/-- The labels that are asked for are the same. -/
theorem placeLabel_hush (c : Context) (s : State) (addr : Nat) :
    s.hush.placeLabel c addr = (s.placeLabel c addr).hush := by
  unfold State.placeLabel
  by_cases hpending : s.pendingLabels.contains addr = true
  · rw [if_pos hpending, if_pos (show s.hush.pendingLabels.contains addr = true from hpending),
      State.hush_header, State.hush_closeScope]
    rfl
  · rw [if_neg hpending, if_neg (show ¬s.hush.pendingLabels.contains addr = true from hpending)]

/-- The ends of a range of scenes are told by the context. -/
theorem placeSkipMark_hush (c : Context) (s : State) (addr : Nat) :
    s.hush.placeSkipMark c addr = (s.placeSkipMark c addr).hush := by
  unfold State.placeSkipMark
  split
  · rfl
  · dsimp only
    rw [← s.hush_remark rfl, ← State.hush_header, State.hush_closeScope, State.hush_emit]
    split
    · rw [State.hush_emit, State.hush_emit]
    · rfl
  · rw [State.hush_header, State.hush_remark _ rfl, State.hush_closeScope]

/-- A branch opens the same block and asks for the same end. -/
theorem branch_hush (c : Context) (s : State) (b : Branch) :
    branch c s.hush b = (branch c s b).hush := by
  unfold branch
  rw [State.access_hush fun _ => rfl]
  generalize s.access b.flag _ _ = found
  obtain ⟨reference?, t⟩ := found
  have hclose : ∀ {u v : State}, u = v.hush →
      ({ u with scopeEnds := b.close :: u.scopeEnds } : State)
        = State.hush { v with scopeEnds := b.close :: v.scopeEnds } :=
    fun h => congrArg (fun u : State => { u with scopeEnds := b.close :: u.scopeEnds }) h
  cases reference? with
  | none =>
    have hopened : (t.hush.remark (.inaccessibleBranch b.flag)).header .ifFalse
        = ((t.remark (.inaccessibleBranch b.flag)).header .ifFalse).hush := by
      rw [State.hush_header, State.hush_remark _ rfl]
    exact hclose hopened
  | some reference => exact hclose (t.hush_header _).symm

theorem jump_hush (c : Context) (s : State) (target : Nat) :
    jump c s.hush target = (jump c s target).hush := by
  unfold jump
  rw [← State.hush_emit]
  rfl

theorem call_hush (c : Context) (s : State) (script : List UInt8) :
    call c s.hush script = (call c s script).hush := by
  unfold call
  dsimp only
  rw [← State.hush_emit]
  refine List.foldl_hom State.hush fun t action => ?_
  cases action with
  | statement text => exact (t.hush_emit _).symm
  | standIn slot reference => rfl

/-- By cases on what the flag of the choice is found to be. -/
theorem choice_hush (c : Context) (s : State) (o : MenuOption) :
    choice c s.hush o = (choice c s o).hush := by
  have hshown : ∀ (t t' : State) condition, t.hush = t' →
      ((t'.header (.choice (c.dialogue o.text) condition)).emit
        (.jump (.script (c.scriptName o.target)))).closeScope
        = ((t.header (.choice (c.dialogue o.text) condition)).emit
            (.jump (.script (c.scriptName o.target)))).closeScope.hush := by
    rintro t _ condition rfl
    rw [State.hush_closeScope, State.hush_emit, State.hush_header]
  unfold choice
  cases flagAccess c.profile o.flag with
  | granted reference => exact hshown s _ _ rfl
  | excluded => exact hshown _ _ _ (s.hush_remark rfl)
  | hinted reference | unmapped =>
    refine hshown _ _ _ ?_
    rw [State.hush_remark _ rfl, State.hush_remark _ rfl]

/-! ## Assignments -/

theorem sourceText_hush (c : Context) (s : State) (op : Renpy.AssignOp) (source : Source) :
    sourceText c s.hush op source
      = ((sourceText c s op source).1, (sourceText c s op source).2.hush) := by
  cases source with
  | immediate value => rfl
  | flag addr | through addr => exact State.access_hush (fun _ => rfl) ..

/-- An assignment looks up two flags, one after the other. -/
theorem assign_hush (c : Context) (s : State) (flag : Int) (op : Renpy.AssignOp) (source : Source) :
    assign c s.hush flag op source = (assign c s flag op source).hush := by
  unfold assign
  rw [sourceText_hush]
  obtain ⟨value?, t⟩ := sourceText c s op source
  dsimp only
  rw [State.access_hush fun _ => rfl]
  obtain ⟨reference?, u⟩ := t.access flag (flagAccess c.profile flag) _
  cases reference? with
  | none => rfl
  | some reference =>
    cases value? with
    | none => exact (u.hush_remark rfl).symm
    | some value => exact (u.hush_emit _).symm

theorem assignRandom_hush (c : Context) (s : State) (flag max : Int) :
    assignRandom c s.hush flag max = (assignRandom c s flag max).hush := by
  unfold assignRandom
  dsimp only
  rw [State.access_hush fun _ => rfl]
  obtain ⟨reference?, t⟩ := s.access flag (flagAccess c.profile flag) _
  cases reference? with
  | none => rfl
  | some reference => exact (t.hush_emit _).symm

theorem clearFlags_hush (c : Context) (s : State) : clearFlags c s.hush = (clearFlags c s).hush :=
  List.foldl_hom State.hush fun t _ => (t.hush_emit _).symm

/-! ## Dialogue -/

theorem lineSize_hush (s : State) : lineSize s.hush = ((lineSize s).1, (lineSize s).2.hush) := by
  unfold lineSize
  rw [show s.hush.textSize = s.textSize from rfl,
    ← s.hush_remark (r := .unknownTextSize s.textSize) rfl]
  split
  · rfl
  · split
    · rfl
    · split
      · rfl
      · rfl

/-- Which pause follows a line is told by the context. -/
theorem takePause_hush (c : Context) (s : State) (addr : Nat) :
    takePause c s.hush addr = ((takePause c s addr).1, (takePause c s addr).2.hush) := by
  unfold takePause
  split
  · rfl
  · split
    · rfl
    · rfl

theorem line_hush (c : Context) (s : State) (addr : Nat) (raw : List UInt8) :
    line c s.hush addr raw = ((line c s addr raw).1, (line c s addr raw).2.hush) := by
  unfold line
  rw [lineSize_hush]
  obtain ⟨size, t⟩ := lineSize s
  dsimp only
  rw [show t.hush.revealDuration = t.revealDuration from rfl, takePause_hush]
  split
  · rfl
  · rfl

theorem utter_hush (c : Context) (s : State) (addr : Nat) (u : Utterance) :
    utter c s.hush addr u = (utter c s addr u).hush := by
  unfold utter
  rw [line_hush]
  obtain ⟨l, t⟩ := line c s addr u.text
  exact congrArg (fun v : State => { v with nextSpeaker := none }) (t.hush_emit _).symm

/-- Both runs say the line, or both halt at it. -/
theorem speak_hush (c : Context) (s : State) (i : Instruction) :
    speak c s.hush i = Step.hush (speak c s i) := by
  unfold speak
  split
  · split
    · exact congrArg Except.ok (utter_hush ..)
    · rfl
  · rfl

/-- Both runs hold a line back for its menu, or neither. -/
theorem say_hush (c : Context) (s : State) (i : Instruction) (rest : List Instruction) :
    say c s.hush i rest = Step.hush (say c s i rest) := by
  unfold say
  split
  · exact congrArg Except.ok (s.hush_remark rfl).symm
  · exact speak_hush c s i

/-- The line that waits is the same one, and the choices are a loop. -/
theorem menu_hush (c : Context) (s : State) (choices : List MenuOption) :
    menu c s.hush choices = Step.hush (menu c s choices) := by
  have hchoices : ∀ t : State, (choices.foldl (choice c) t.hush).closeScope
      = ((choices.foldl (choice c) t).closeScope).hush := by
    intro t
    rw [State.hush_closeScope]
    exact congrArg State.closeScope (List.foldl_hom State.hush fun t o => choice_hush c t o)
  unfold menu
  dsimp only
  rw [← State.hush_header, show (s.header .menu).hush.held = (s.header .menu).held from rfl]
  split
  · next j _ _ =>
    have hspeak : speak c { (s.header .menu).hush with held := none } j
        = Step.hush (speak c { s.header .menu with held := none } j) :=
          speak_hush c { s.header .menu with held := none } j
    rw [hspeak]
    cases speak c { s.header .menu with held := none } j with
    | ok t => exact congrArg Except.ok (hchoices t)
    | error halt => rfl
  · exact congrArg Except.ok (hchoices _)

/-- The pauses that lines have taken over are the same. -/
theorem sleep_hush (s : State) (i : Instruction) (ms : Option Int) :
    sleep s.hush i ms = Step.hush (sleep s i ms) := by
  unfold sleep
  rw [show s.hush.inlinedPauses = s.inlinedPauses from rfl]
  split
  · have hremark :=
      State.hush_remark { s with inlinedPauses := s.inlinedPauses.filter (· != i.addr) }
      (r := .pauseInlined) rfl
    exact congrArg Except.ok hremark.symm
  · split
    · exact congrArg Except.ok (s.hush_emit _).symm
    · rfl

/-! ## Sound -/

theorem remarkChannel_hush (s : State) (channel : Int) :
    remarkChannel s.hush channel = (remarkChannel s channel).hush := by
  unfold remarkChannel
  split
  · rfl
  · exact (s.hush_remark rfl).symm

theorem playSound_hush (c : Context) (s : State) (channel : Nat) (file : List UInt8)
    (fadein repeats : Int) :
    playSound c s.hush channel file fadein repeats
      = (playSound c s channel file fadein repeats).hush := by
  unfold playSound
  rw [remarkChannel_hush, State.hush_emit]

theorem stopSound_hush (s : State) (channel : Int) (fadeout : Option Int) :
    stopSound s.hush channel fadeout = (stopSound s channel fadeout).hush := by
  unfold stopSound
  split
  · exact (s.hush_emit _).symm
  · rw [remarkChannel_hush, State.hush_emit]

theorem voice_hush (c : Context) (s : State) (file : List UInt8) :
    voice c s.hush file = (voice c s file).hush := by
  unfold voice
  rw [← State.hush_emit]
  split
  · rfl
  · rfl

/-! ## Scenery -/

/-- Drawing reads the stage and writes cues. -/
theorem draw_hush (c : Context) (s : State) :
    draw c s.hush = ((draw c s).1, (draw c s).2.hush) := by
  have hcues : ∀ (cues : List Stage.Cue) (t : State),
      cues.foldl State.cue t.hush = (cues.foldl State.cue t).hush := by
    intro cues t
    refine List.foldl_hom State.hush fun u cue => ?_
    cases cue with
    | draw shot lines =>
      exact congrArg (fun d => { u with document := d }) (u.document.hush_shot shot lines).symm
    | hide tag => exact (u.hush_emit _).symm
  exact congrArg (Prod.mk _) (hcues _ { s with stage := (s.stage.draw c.drawing).1 })

theorem setViewport_hush (s : State) (zoom xpan ypan : Int) :
    setViewport s.hush zoom xpan ypan = (setViewport s zoom xpan ypan).hush := by
  unfold setViewport
  rw [State.stage_hush]
  split
  · rfl
  · exact (s.hush_remark rfl).symm

/-- The remark that a picture is not replaced is no listing. -/
theorem putForeground_hush (s : State) (addr index : Nat) (name : String) (x y : Int) :
    putForeground s.hush addr index name x y = Step.hush (putForeground s addr index name x y) := by
  unfold putForeground
  rw [State.stage_hush]
  split
  · rfl
  · split
    · exact congrArg Except.ok (s.hush_remark rfl).symm
    · dsimp only
      split
      · rfl
      · rfl

theorem showForeground_hush (s : State) (addr index : Nat) (name : String) (x y : Int)
    (untinted : Bool) :
    showForeground s.hush addr index name x y untinted
      = Step.hush (showForeground s addr index name x y untinted) := by
  unfold showForeground
  rw [putForeground_hush]
  cases putForeground s addr index name x y with
  | ok t => rfl
  | error halt => rfl

/-- The object is replaced in both runs or moved in both. -/
theorem showObject_hush (s : State) (addr : Nat) (name : String) (x y : Int) :
    showObject s.hush addr name x y = Step.hush (showObject s addr name x y) := by
  unfold showObject
  rw [State.stage_hush]
  dsimp only
  split
  · split
    · split
      · rfl
      · rfl
    · rfl
  · rfl

theorem clearForeground_hush (s : State) (index : Int) :
    clearForeground s.hush index = (clearForeground s index).hush := by
  unfold clearForeground
  rw [← s.hush_remark rfl]
  dsimp only
  rw [State.stage_hush]
  split
  · rfl
  · rfl

theorem clearObject_hush (s : State) : clearObject s.hush = (clearObject s).hush := by
  unfold clearObject
  rw [← s.hush_remark rfl]
  dsimp only
  rw [State.stage_hush]
  split
  · rfl
  · rfl

theorem setMask_hush (s : State) (mask : String) : setMask s.hush mask = (setMask s mask).hush := by
  unfold setMask
  rw [← s.hush_remark rfl]
  rfl

theorem weather_hush (c : Context) (s : State) (kind limit : Int) :
    weather c s.hush kind limit = (weather c s kind limit).hush := by
  unfold weather
  split
  · exact (s.hush_emit _).symm
  · split
    · exact (s.hush_emit _).symm
    · exact (s.hush_remark rfl).symm

theorem screenEffect_hush (s : State) (kind duration magnitude : Int) :
    screenEffect s.hush kind duration magnitude
      = (screenEffect s kind duration magnitude).hush := by
  unfold screenEffect
  split
  · exact (s.hush_emit _).symm
  · split
    · split
      · rw [State.hush_closeScope, State.hush_emit, State.hush_header]
      · exact (s.hush_emit _).symm
    · exact (s.hush_remark rfl).symm

/-! ## Transitions and animation -/

theorem dissolve_hush (s : State) (time : String) {r : Remark} (h : r.isListing = false) :
    dissolve s.hush time r = (dissolve s time r).hush := by
  unfold dissolve
  rw [State.hush_emit, s.hush_remark h]

/-- By cases on the effect: each is one statement, in some cases behind a remark. -/
theorem showEffect_hush (c : Context) (s : State) (addr : Nat) (method : Method) (ms : Int) :
    showEffect c s.hush addr method ms = Step.hush (showEffect c s addr method ms) := by
  have hdissolve : ∀ time {r : Remark}, r.isListing = false →
      (.ok (dissolve s.hush time r) : Step) = Step.hush (.ok (dissolve s time r)) :=
    fun time _ h => congrArg Except.ok (dissolve_hush s time h)
  have hemit : ∀ st, (.ok (s.hush.emit st) : Step) = Step.hush (.ok (s.emit st)) :=
    fun st => congrArg Except.ok (s.hush_emit st).symm
  unfold showEffect
  rw [State.stage_hush]
  dsimp only
  split
  · exact hdissolve _ rfl
  · split
    · split
      · exact hemit _
      · rfl
    · split
      · split
        · exact hemit _
        · exact hdissolve _ rfl
      · split
        · exact hemit _
        · exact hdissolve _ rfl

/-- Whether something changed is told by the stage. -/
theorem transition_hush (c : Context) (s : State) (addr : Nat) (method : Method) (ms : Int) :
    transition c s.hush addr method ms = Step.hush (transition c s addr method ms) := by
  unfold transition
  rw [draw_hush]
  obtain ⟨changed, t⟩ := draw c s
  dsimp only
  split
  · rfl
  · exact showEffect_hush c t addr method ms

/-- A motion goes to the same picture, or halts for the same reason. -/
theorem addMotion_hush (s : State) (addr : Nat) (m : Motion) :
    addMotion s.hush addr m = Step.hush (addMotion s addr m) := by
  have hbackground : ∀ kind, moveBackground s.hush kind m = (moveBackground s kind m).hush := by
    intro kind
    unfold moveBackground
    rw [State.stage_hush]
    split
    · rfl
    · exact (s.hush_remark rfl).symm
  have hforeground : ∀ kind index, moveForeground s.hush addr kind index m
      = Step.hush (moveForeground s addr kind index m) := by
    intro kind index
    unfold moveForeground
    rw [State.stage_hush]
    split
    · exact congrArg Except.ok (s.hush_remark rfl).symm
    · split
      · rfl
      · rfl
  unfold addMotion
  rw [hbackground, hbackground, hforeground, hforeground]
  split
  · rfl
  · split
    · rfl
    · split
      · rfl
      · rfl

/-- The doubts about an animation come from the context. -/
theorem keyFrame_hush (c : Context) (s : State) (i : Instruction) (motion : Option Motion) :
    keyFrame c s.hush i motion = Step.hush (keyFrame c s i motion) := by
  unfold keyFrame
  split
  · exact congrArg Except.ok (s.hush_remark rfl).symm
  · split
    · exact addMotion_hush s i.addr _
    · rfl

theorem play_hush (c : Context) (s : State) (rest : List Instruction) :
    play c s.hush rest = (play c s rest).hush := by
  unfold play
  split
  · have hdraw := draw_hush c { s with stage := { s.stage with inSegment := false } }
    exact congrArg Prod.snd hdraw
  · rw [← s.hush_remark rfl]
    rfl

/-! ## Commands -/

/-- A context whose profile asks for no listings. -/
def Context.quiet (c : Context) : Context :=
  { c with profile := { c.profile with includeListing := false } }

/-- The flag of a choice is found to be the same in a profile without listings. -/
theorem choice_quiet (c : Context) : choice c.quiet = choice c := by
  funext s o
  -- in two steps: at once, `rfl` would look for the address of the flag
  have haccess : ∀ flag : Int, flagAccess c.quiet.profile flag = flagAccess c.profile flag :=
    fun _ => rfl
  have hoffer : ∀ found, offer c.quiet s o found = offer c s o found := fun _ => rfl
  unfold choice
  rw [haccess, hoffer]

theorem menu_quiet (c : Context) (s : State) (choices : List MenuOption) :
    menu c.quiet s choices = menu c s choices := by
  unfold menu
  rw [choice_quiet]
  rfl

/-- What a command does depends on listings neither in the profile nor in the document. -/
theorem execute_hush (c : Context) (i : Instruction) (rest : List Instruction) (s : State)
    (command : Command) :
    execute c.quiet i rest s.hush command = Step.hush (execute c i rest s command) := by
  have hok : ∀ {t t' : State}, t = t'.hush →
      (.ok t : Step) = Step.hush (.ok t') := fun h => congrArg Except.ok h
  -- apart from menus, commands read nothing in the quiet context that is not in `c` as it stands
  cases command with
  | branch b => exact hok (branch_hush c s b)
  | jump target => exact hok (jump_hush c s target)
  | call script => exact hok (call_hush c s script)
  | menu choices => exact (menu_quiet c s.hush choices).trans (menu_hush c s choices)
  | assign flag op source => exact hok (assign_hush c s flag op source)
  | random flag max => exact hok (assignRandom_hush c s flag max)
  | clearFlags => exact hok (clearFlags_hush c s)
  | say => exact say_hush c s i rest
  | sleep ms => exact sleep_hush s i ms
  | playSound channel file fadein repeats =>
    exact hok (playSound_hush c s channel file fadein repeats)
  | stopSound channel fadeout => exact hok (stopSound_hush s channel fadeout)
  | voice file => exact hok (voice_hush c s file)
  | viewport zoom xpan ypan => exact hok (setViewport_hush s zoom xpan ypan)
  | foreground index name x y untinted =>
    exact showForeground_hush s i.addr index (c.text name) x y untinted
  | object name x y => exact showObject_hush s i.addr (c.text name) x y
  | clearForeground index => exact hok (clearForeground_hush s index)
  | clearObject => exact hok (clearObject_hush s)
  | mask name => exact hok (setMask_hush s (c.text name))
  | weather kind limit => exact hok (weather_hush c s kind limit)
  | screenEffect kind duration magnitude => exact hok (screenEffect_hush s kind duration magnitude)
  | transition method ms => exact transition_hush c s i.addr method ms
  | keyFrame motion => exact keyFrame_hush c s i motion
  | play => exact hok (play_hush c s rest)
  | revealDuration value =>
    have hremark :=
      State.hush_remark { s with revealDuration := value } (r := .revealDuration value) rfl
    exact hok hremark.symm
  | revealFromFlag | playNowhere => exact hok (s.hush_remark rfl).symm
  | nothing | textSize | background | tint => rfl
  | goto | ret | extend | eventName | playMusic | stopMusic | sideImage | hideSideImage |
      clearScreenEffect | video =>
    exact hok (s.hush_emit _).symm

/-! ## Steps and runs -/

/-- An announcement leaves nothing behind but its listing. -/
theorem announce_hush (c : Context) (s : State) (i : Instruction) :
    announce c.quiet s.hush i = (announce c s i).hush := by
  show s.hush.report .trace (i.listing c.profile.charset c.profile.readers) = _
  unfold announce
  dsimp only
  split
  · exact congrArg (fun d => { s.report .trace (i.listing c.profile.charset c.profile.readers)
      with document := d })
      (s.document.hush_listing _).symm
  · rfl

/-- The announcement aside, an instruction is dealt with alike. -/
theorem dispatch_hush (c : Context) (s : State) (i : Instruction) (rest : List Instruction) :
    dispatch c.quiet s.hush i rest = Step.hush (dispatch c s i rest) := by
  unfold dispatch
  rw [announce_hush]
  split
  · exact congrArg Except.ok (s.hush_remark rfl).symm
  · rfl
  · exact execute_hush c i rest _ _

/-- On the way to an instruction nothing is listed. -/
theorem arrive_hush (c : Context) (s : State) (i : Instruction) (rest : List Instruction) :
    s.hush.arrive c.quiet i rest = (s.arrive c i rest).hush := by
  have hplaced : ((s.hush.placeSkipMark c i.addr).closeBranches i.addr).placeLabel c i.addr
      = (((s.placeSkipMark c i.addr).closeBranches i.addr).placeLabel c i.addr).hush := by
    rw [placeSkipMark_hush, closeBranches_hush, placeLabel_hush]
  unfold State.arrive
  rw [show waitsForMenu c.quiet i rest = waitsForMenu c i rest from rfl]
  split
  · exact congrArg (fun t : State => { t with held := some i }) hplaced
  · exact hplaced

/-- A step is the way to an instruction and what is done with it. -/
theorem step_hush (c : Context) (s : State) (i : Instruction) (rest : List Instruction) :
    step c.quiet s.hush i rest = Step.hush (step c s i rest) := by
  by_cases hend : i.mnemonic = .endOfStream
  · have hplaced : (s.hush.closeBranches i.addr).placeLabel c i.addr
        = ((s.closeBranches i.addr).placeLabel c i.addr).hush := by
      rw [closeBranches_hush, placeLabel_hush]
    unfold step
    rw [if_pos (by simp [hend]), if_pos (by simp [hend])]
    exact congrArg Except.ok hplaced
  · rw [step_of_ne_end hend, step_of_ne_end hend, arrive_hush, dispatch_hush]

/-- The whole run, by induction on the instructions. -/
theorem runFrom_hush (c : Context) (l : List Instruction) (s : State) (index : Nat) :
    runFrom c.quiet s.hush index l =
      match runFrom c s index l with
      | .ok t => .ok t.hush
      | .error (stop, halt) => .error (stop, { halt with state := halt.state.hush }) := by
  induction l generalizing s index with
  | nil => rfl
  | cons i rest ih =>
    unfold runFrom
    rw [step_hush]
    cases step c s i rest with
    | ok t => exact ih t (index + 1)
    | error halt => rfl

/-- Without the request for listings a script is the same without them. -/
theorem ofInstructions_hush (name : String) (l : List Instruction) (graph : BlockGraph)
    (p : Profile) :
    ofInstructions name l graph { p with includeListing := false } =
      { ofInstructions name l graph p
        with document := (ofInstructions name l graph p).document.hush } := by
  have hrun := runFrom_hush ⟨p, Unicode.toUpper name, l, graph⟩ l
      (start ⟨p, Unicode.toUpper name, l, graph⟩) 0
  change runFrom ⟨{ p with includeListing := false }, Unicode.toUpper name, l, graph⟩
    (start ⟨{ p with includeListing := false }, Unicode.toUpper name, l, graph⟩) 0 l = _ at hrun
  unfold ofInstructions
  dsimp only
  rw [hrun]
  cases runFrom ⟨p, Unicode.toUpper name, l, graph⟩
    (start ⟨p, Unicode.toUpper name, l, graph⟩) 0 l with
  | ok s =>
    exact congrArg (fun d => (⟨d, none, s.records.toList⟩ : Screenplay))
      s.document.hush_closeAll.symm
  | error stopped =>
    obtain ⟨stop, halt⟩ := stopped
    have hlast : ((halt.state.document.comment .interrupted).statement .reportIncomplete).hush
        = (halt.state.document.hush.comment .interrupted).statement .reportIncomplete := by
      rw [Document.hush_statement, Document.hush_comment _ rfl]
    exact congrArg (fun d => (⟨d, some halt.fault, _⟩ : Screenplay)) hlast.symm

/-! ## Which listings there are -/

/-- Whether an instruction is dealt with, and so announced. -/
def isHandled (i : Instruction) : Bool :=
  !(Reading.ofInstruction i matches .unhandled)

/-- Other comments leave the listings as they are. -/
theorem Noted.listings_eq {s s' : State} (h : Noted (fun r => r.isListing = false) s s') :
    s'.document.listings = s.document.listings := by
  obtain ⟨added, heq, hadded⟩ := h
  have hnone : added.filterMap Remark.listing? = [] := by
    rw [List.filterMap_eq_nil_iff]
    intro r hr
    exact Option.isNone_iff_eq_none.mp (Option.isSome_eq_false_iff.mp (hadded r hr))
  unfold Document.listings
  rw [heq, List.filterMap_append, hnone, List.append_nil]

/-- None of the remarks that commands add is a listing. -/
theorem isListing_of_notes {command : Command} {r : Remark} (h : command.notes r = true) :
    r.isListing = false := by
  cases r with
  | listing line => cases command <;> cases h
  | _ => rfl

/-- The announcement of an instruction lists it behind the others. -/
theorem listings_announce (hinclude : c.profile.includeListing = true) (s : State)
    (i : Instruction) :
    (announce c s i).document.listings
      = s.document.listings ++ [i.listing c.profile.charset c.profile.readers] := by
  unfold announce
  dsimp only
  rw [if_pos hinclude]
  exact (congrArg (List.filterMap Remark.listing?) (s.document.remarks_comment _)).trans
    List.filterMap_append

/-- A step adds the listing of its instruction if that is dealt with, whether it halts or not. -/
theorem listings_step (hinclude : c.profile.includeListing = true)
    (hmove : c.profile.moveSayIntoMenu = false → s.held = none) (i : Instruction)
    (rest : List Instruction) :
    (outcome (step c s i rest)).document.listings
      = s.document.listings ++ ([i].filter isHandled).map
        (·.listing c.profile.charset c.profile.readers) := by
  have harrive : Noted (fun r => r.isListing = false) s (s.arrive c i rest) :=
    noted_arrive s rest (fun _ => rfl) (fun _ => rfl)
  have hannounce : (announce c (s.arrive c i rest) i).document.listings
      = s.document.listings ++ [i.listing c.profile.charset c.profile.readers] := by
    rw [listings_announce hinclude, harrive.listings_eq]
  have hends := stepEnds_outcome c s i rest
  generalize outcome (step c s i rest) = t at hends ⊢
  cases hends with
  | ending hend =>
    have hclosed : Noted (fun r => r.isListing = false) s
        ((s.closeBranches i.addr).placeLabel c i.addr) :=
      (noted_closeBranches s i.addr).trans (noted_placeLabel ..)
    simpa [isHandled, ofInstruction_of_endOfStream hend] using hclosed.listings_eq
  | unhandled _ hread =>
    have hremark :=
      harrive.trans (.remark _
        (r := .unhandled (i.listing c.profile.charset c.profile.readers)) rfl)
    simpa [isHandled, hread] using hremark.listings_eq
  | malformed _ hread => simpa [isHandled, hread] using hannounce
  | @command command _ hread =>
    have hexecute : Noted (fun r => r.isListing = false) (announce c (s.arrive c i rest) i)
        (outcome (execute c i rest (announce c (s.arrive c i rest) i) command)) := by
      cases hexec : execute c i rest (announce c (s.arrive c i rest) i) command with
      | error halt => exact noted_of_error hexec
      | ok t =>
        exact (noted_execute (held_announce_arrive hmove) hexec).mono
          fun r hr => isListing_of_notes hr.1
    simpa [isHandled, hread] using hexecute.listings_eq.trans hannounce

/-- The listings of a run are those of the instructions gone through, in order. -/
theorem listings_of_reached (hinclude : c.profile.includeListing = true) (h : Reached c rest s) :
    ∃ gone, c.instructions = gone ++ rest ∧
      s.document.listings = (gone.filter isHandled).map
        (·.listing c.profile.charset c.profile.readers) := by
  induction h with
  | here =>
    refine ⟨[], rfl, ?_⟩
    unfold Document.listings
    rw [remarks_start]
    rfl
  | @step i rest t t' hruns hstep ih =>
    obtain ⟨gone, hgone, hlistings⟩ := ih
    have hnext := listings_step hinclude (held_of_reached hruns) i rest
    rw [hstep, hlistings, ← List.map_append, ← List.filter_append] at hnext
    exact ⟨gone ++ [i], by rw [hgone, List.append_assoc, List.singleton_append], hnext⟩

/-- So are those of a script, complete or not. -/
theorem listings_of_outcome {p : Screenplay} (hinclude : c.profile.includeListing = true)
    (h : Outcome c p) :
    ∃ gone left, c.instructions = gone ++ left ∧ (p.isComplete = true → left = []) ∧
      (p.isComplete = false → ∃ front i s halt, gone = front ++ [i] ∧ Reached c (i :: left) s ∧
        step c s i left = .error halt) ∧
      p.document.listings = (gone.filter isHandled).map
        (·.listing c.profile.charset c.profile.readers) := by
  cases h with
  | @complete s hs hcomplete hdocument =>
    obtain ⟨gone, hgone, hlistings⟩ := listings_of_reached hinclude hs
    refine ⟨gone, [], hgone, fun _ => rfl, fun hfalse => ?_, ?_⟩
    · rw [hcomplete] at hfalse
      cases hfalse
    · unfold Document.listings at hlistings ⊢
      rw [hdocument, Document.remarks_closeAll, hlistings]
  | @halted i rest s halt hs hstep hcomplete hdocument =>
    obtain ⟨gone, hgone, hlistings⟩ := listings_of_reached hinclude hs
    have hhalt := listings_step hinclude (held_of_reached hs) i rest
    rw [hstep, hlistings, ← List.map_append, ← List.filter_append] at hhalt
    refine ⟨gone ++ [i], rest, by rw [hgone, List.append_assoc, List.singleton_append],
      fun htrue => ?_, fun _ => ⟨gone, i, s, halt, rfl, hs, hstep⟩, ?_⟩
    · rw [hcomplete] at htrue
      cases htrue
    · unfold Document.listings at hhalt ⊢
      rw [hdocument, Document.remarks_statement, Document.remarks_comment,
        List.filterMap_append, ← hhalt]
      exact List.append_nil _

/-! ## Where they stand -/

/-- The listing stands at the depth of what comes next. -/
theorem entries_announce (hinclude : c.profile.includeListing = true) (s : State)
    (i : Instruction) :
    (announce c s i).document.entries.toList = s.document.entries.toList ++
      [⟨s.document.depth, .comment
        (.listing (i.listing c.profile.charset c.profile.readers))⟩] := by
  unfold announce
  dsimp only
  rw [if_pos hinclude]
  exact s.document.entries_comment _

/-- What an instruction becomes comes behind its announcement. -/
theorem isPrefix_step_of_isHandled (hi : isHandled i = true) (s : State) (rest : List Instruction) :
    (announce c (s.arrive c i rest) i).document.entries.toList
      <+: (outcome (step c s i rest)).document.entries.toList := by
  have hends := stepEnds_outcome c s i rest
  generalize outcome (step c s i rest) = t at hends ⊢
  cases hends with
  | ending hend => simp [isHandled, ofInstruction_of_endOfStream hend] at hi
  | unhandled _ hread => simp [isHandled, hread] at hi
  | malformed => exact List.prefix_rfl
  | command => exact (writesWithin_execute ..).isPrefix

/-- Listings change nothing else: without the request for them a script has the same fault, the
same reports and the same lines at the same depths, less the listings. Those are the listings of
the instructions that were dealt with, in order, up to the one that the run halted at, and each
stands right before what its instruction becomes. -/
theorem transpile_without_listings (name : String) (script : List UInt8) (p : Profile) :
    let c := scriptContext name script { p with includeListing := true }
    let verbose := transpile name script { p with includeListing := true }
    let quiet := transpile name script { p with includeListing := false }
    quiet.fault = verbose.fault ∧ quiet.records = verbose.records ∧
    quiet.document.entries.toList = verbose.document.entries.toList.filter
      (fun line => !line.isListing) ∧
    (∃ gone left, Bytecode.decode p.version true script = gone ++ left ∧
      (verbose.isComplete = true → left = []) ∧
      (verbose.isComplete = false → ∃ front i s halt, gone = front ++ [i] ∧
        Reached c (i :: left) s ∧
        step c s i left = .error halt) ∧
      verbose.document.listings = (gone.filter isHandled).map (·.listing p.charset p.readers)) ∧
    ∀ i rest s, Reached c (i :: rest) s → isHandled i = true →
      (s.arrive c i rest).document.entries.toList ++
        [⟨(s.arrive c i rest).document.depth, .comment (.listing (i.listing p.charset p.readers))⟩]
          <+: verbose.document.entries.toList := by
  intro c verbose quiet
  have hquiet : quiet = { verbose with document := verbose.document.hush } := by
    have hplay := ofInstructions_hush name (Bytecode.decode p.version true script)
      (BlockGraph.build (Bytecode.decode p.version true script)) { p with includeListing := true }
    exact congrArg (fun play : Screenplay => { play with
      records := Bytecode.decodeRecords p.version script (Bytecode.decode p.version true script) ++
        BlockGraph.buildRecords (Bytecode.decode p.version true script) ++ play.records }) hplay
  refine ⟨?_, ?_, ?_, ?_, ?_⟩
  · rw [hquiet]
  · rw [hquiet]
  · rw [hquiet]
    exact Array.toList_filter ..
  · exact listings_of_outcome (c := c) rfl (outcome_transpile name script _)
  · intro i rest s hs hi
    have hbehind := (isPrefix_step_of_isHandled hi s rest).trans (entries_transpile_of_reached hs)
    rw [entries_announce rfl] at hbehind
    exact hbehind

/-- A pause, an instruction that is not dealt with, and a return. -/
def pauseAndReturn : List UInt8 :=
  [0x82, 200, 0, 0, 0x55, 0, 0x0a, 0]

def firstPause : Instruction :=
  ⟨0, 4, some 0x82, .sleep, [.int 200]⟩

def lastReturn : Instruction :=
  ⟨6, 2, some 0x0a, .ret, []⟩

/-- The pause and the return are listed, the pause right behind the label of the script. -/
theorem listings_of_pauseAndReturn :
    let c := scriptContext "a" pauseAndReturn {}
    (transpile "a" pauseAndReturn {}).isComplete = true ∧ isHandled firstPause = true ∧
      (transpile "a" pauseAndReturn {}).document.listings
        = [firstPause, lastReturn].map (·.listing ({} : Profile).charset ({} : Profile).readers) ∧
      ∃ rest, Reached c (firstPause :: rest) (start c) ∧
        ((start c).arrive c firstPause rest).document.entries.toList ++
          [⟨((start c).arrive c firstPause rest).document.depth,
            .comment (.listing (firstPause.listing ({} : Profile).charset ({} : Profile).readers))⟩]
            <+: (transpile "a" pauseAndReturn {}).document.entries.toList := by
  intro c
  have hbuild : BlockGraph.build (Bytecode.decode .standard true pauseAndReturn)
      = ⟨[⟨0, some 8, .leave, none, none, [], []⟩]⟩ :=
    BlockGraph.build_eq_of_perm (by decide +kernel) (by decide)
  have hcomplete : (transpile "a" pauseAndReturn {}).isComplete = true := by
    rw [(transpile_of_build "a" pauseAndReturn {} hbuild).2]
    decide +kernel
  obtain ⟨-, -, -, ⟨gone, left, hgone, hleft, -, hlistings⟩, hplaces⟩ :=
    transpile_without_listings "a" pauseAndReturn {}
  obtain rfl := hleft hcomplete
  have hfirst : c.instructions = firstPause :: c.instructions.drop 1 := by decide +kernel
  have hreached : Reached c (firstPause :: c.instructions.drop 1) (start c) := by
    have hhere : Reached c c.instructions (start c) := .here
    rwa [hfirst] at hhere
  have hhandled : (Bytecode.decode .standard true pauseAndReturn).filter isHandled
      = [firstPause, lastReturn] := by
    decide +kernel
  rw [List.append_nil] at hgone
  rw [← hgone, hhandled] at hlistings
  exact ⟨hcomplete, rfl, hlistings, _, hreached, hplaces _ _ _ hreached rfl⟩

end Rio.Screenplay
