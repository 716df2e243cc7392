import Rio.Proofs.Screenplay.SkipGuards
import Rio.Proofs.Stage.Timelines

/-!
# Effects stand with what they show

A transition draws what changed and then writes its effect. With the orphans removed it writes the
effect only if the drawing reports a change, so the report has to be exact:

> `draw_fst_eq`: a drawing reports a change just if the stage has something due (`Stage.isDue`), and
> just if it adds lines (`drawnLines`), all of them statements;
> `draw_draw`: a drawing right after another one does nothing and reports nothing.

A new background makes the drawing clear places without a line of their own, but then it has the
line of the background. So in a script every effect has the lines of its own drawing right before
it, with nothing but comments in between (`effectsFollow_of_outcome`): no other instruction writes
effects (`written_step_of_not_transition`), and what a transition writes is what it drew,
comments, and the effect (`showEffect_cases`).
-/

namespace Rio.Stage

open Renpy (Entry Statement)

variable {g : Stage} {drawing : Drawing}

/-! ## What is due -/

/-- Whether a drawing has something to do: the background changed, or a place of a group that asks
for it changed or is to be cleared. -/
def isDue (g : Stage) : Bool :=
  g.clears || (g.foregroundRedraw && !g.foregrounds.all (·.all Slot.isClean)) ||
    (g.objectRedraw && !g.object.all Slot.isClean)

/-- On a screen that was not cleared a place has cues just if it is not clean, and then it tells
that it changed. -/
theorem drawSlot_uncleared (tag : Renpy.Tag) (shot : Picture → Renpy.Shot) (slot : Option Slot) :
    ((drawSlot drawing false tag shot slot).2.1 = [] ↔ slot.all Slot.isClean = true) ∧
      (drawSlot drawing false tag shot slot).2.2 = !slot.all Slot.isClean := by
  cases slot with
  | none => simp [drawSlot]
  | some taken =>
    obtain ⟨figure, pending⟩ := taken
    cases pending with
    | true => simp [drawSlot, Slot.isClean]
    | false =>
      cases figure with
      | standIn reference => simp [drawSlot, Slot.isClean, Figure.isDirty]
      | picture p =>
        cases hdirty : p.dirty <;> simp [drawSlot, Slot.isClean, Figure.isDirty, hdirty]

/-- The same for the foregrounds from a place on. -/
theorem drawForegroundsFrom_uncleared (index : Nat) (slots : List (Option Slot)) :
    ((drawForegroundsFrom drawing false index slots).2.1 = []
        ↔ slots.all (·.all Slot.isClean) = true) ∧
      (drawForegroundsFrom drawing false index slots).2.2 = !slots.all (·.all Slot.isClean) := by
  induction slots generalizing index with
  | nil => exact ⟨iff_of_true rfl rfl, rfl⟩
  | cons slot rest ih =>
    obtain ⟨hcues, hchanged⟩ :
        ((drawForeground drawing false index slot).2.1 = [] ↔ slot.all Slot.isClean = true) ∧
          (drawForeground drawing false index slot).2.2 = !slot.all Slot.isClean :=
      drawSlot_uncleared ..
    obtain ⟨hlater, hchangedLater⟩ := ih (index + 1)
    rw [List.all_cons, Bool.and_eq_true, Bool.not_and, ← hcues, ← hlater, ← hchanged,
      ← hchangedLater]
    exact ⟨List.append_eq_nil_iff, rfl⟩

/-- The background has a cue just if it clears the screen. -/
theorem drawBackground_eq_nil_iff (drawing : Drawing) (g : Stage) :
    (drawBackground drawing g).2.1 = [] ↔ g.clears = false := by
  rw [drawBackground_eq]
  unfold clears
  cases g.backgroundRedraw with
  | false => simp
  | true =>
    cases g.background with
    | none => simp
    | some p => cases hdirty : p.dirty <;> simp [hdirty]

/-! ## What a drawing tells

A drawing collects in a flag of its own whether anything changed. On a screen that was cleared a
place can change without a cue, since there is nothing left to hide in it; the flag and the cues
of the whole stage agree because the background that cleared the screen has a cue itself. -/

/-- If the screen is not cleared, the foregrounds have cues just if one of them is due, and tell
so. -/
theorem foregroundCues_uncleared (hclears : g.clears = false) :
    ((foregroundCues drawing g).1 = []
        ↔ (g.foregroundRedraw && !g.foregrounds.all (·.all Slot.isClean)) = false) ∧
      (foregroundCues drawing g).2
        = (g.foregroundRedraw && !g.foregrounds.all (·.all Slot.isClean)) := by
  unfold foregroundCues
  rw [hclears, Bool.false_or]
  cases g.foregroundRedraw with
  | false => exact ⟨iff_of_true rfl rfl, rfl⟩
  | true =>
    rw [if_pos rfl, Bool.true_and, Bool.not_eq_false']
    exact drawForegroundsFrom_uncleared 0 g.foregrounds

/-- The same for the object. -/
theorem drawnObject_uncleared (hclears : g.clears = false) :
    ((drawnObject drawing g).2.1 = []
        ↔ (g.objectRedraw && !g.object.all Slot.isClean) = false) ∧
      (drawnObject drawing g).2.2 = (g.objectRedraw && !g.object.all Slot.isClean) := by
  unfold drawnObject
  rw [hclears, Bool.false_or]
  cases g.objectRedraw with
  | false => exact ⟨iff_of_true rfl rfl, rfl⟩
  | true =>
    rw [if_pos rfl, Bool.true_and, Bool.not_eq_false']
    exact drawSlot_uncleared .object (objectShot drawing) g.object

/-- A drawing has cues just if something is due. -/
theorem draw_eq_nil_iff (drawing : Drawing) (g : Stage) :
    (g.draw drawing).2.1 = [] ↔ g.isDue = false := by
  rw [(drawn drawing g).cues, List.append_eq_nil_iff, List.append_eq_nil_iff,
    drawBackground_eq_nil_iff]
  unfold isDue
  rw [Bool.or_eq_false_iff, Bool.or_eq_false_iff]
  cases hclears : g.clears with
  | true => simp
  | false =>
    rw [(foregroundCues_uncleared hclears).1, (drawnObject_uncleared hclears).1]

/-- A drawing tells that something changed just if something is due. -/
theorem draw_changed_eq (drawing : Drawing) (g : Stage) : (g.draw drawing).2.2 = g.isDue := by
  rw [(drawn drawing g).changed]
  unfold isDue
  cases hclears : g.clears with
  | true => simp
  | false => rw [(foregroundCues_uncleared hclears).2, (drawnObject_uncleared hclears).2]

/-- A stage that asks for nothing is not drawn. -/
theorem draw_eq_self (hbackground : g.backgroundRedraw = false)
    (hforeground : g.foregroundRedraw = false) (hobject : g.objectRedraw = false)
    (drawing : Drawing) : g.draw drawing = (g, [], false) := by
  obtain ⟨background, backgroundRedraw, foregrounds, foregroundRedraw, object, objectRedraw, tint,
    mask, inSegment⟩ := g
  dsimp only at hbackground hforeground hobject
  subst hbackground hforeground hobject
  rfl

/-- After a drawing there is nothing left to draw. -/
theorem draw_draw (g : Stage) (drawing drawing' : Drawing) :
    (g.draw drawing).1.draw drawing' = ((g.draw drawing).1, [], false) := by
  have hdrawn := drawn drawing g
  exact draw_eq_self hdrawn.backgroundRedraw hdrawn.foregroundRedraw hdrawn.objectRedraw drawing'

/-! ## Lines of cues -/

/-- The lines that a cue adds in a block of some depth. -/
def Cue.lines (depth : Nat) : Cue → List Entry
  | .draw s lines =>
    ⟨depth, .statement (.shot s (!lines.isEmpty))⟩ :: lines.map
      fun line => ⟨depth + 1, .statement (.atl line)⟩
  | .hide t => [⟨depth, .statement (.hide t)⟩]

theorem Cue.lines_ne_nil (depth : Nat) (cue : Cue) : cue.lines depth ≠ [] := by
  cases cue with
  | draw s lines => exact List.cons_ne_nil _ _
  | hide t => exact List.cons_ne_nil _ _

/-- The lines of cues are statements that show or hide something. -/
theorem exists_of_mem_lines {depth : Nat} {cues : List Cue} {line : Entry}
    (h : line ∈ cues.flatMap (Cue.lines depth)) :
    ∃ st, line.content = .statement st ∧ st.isCue = true := by
  obtain ⟨cue, -, hline⟩ := List.mem_flatMap.mp h
  cases cue with
  | draw s lines =>
    rcases List.mem_cons.mp hline with rfl | hline
    · exact ⟨_, rfl, rfl⟩
    · obtain ⟨atl, -, rfl⟩ := List.mem_map.mp hline
      exact ⟨_, rfl, rfl⟩
  | hide t =>
    rw [List.mem_singleton.mp hline]
    exact ⟨_, rfl, rfl⟩

end Rio.Stage

namespace Rio.Renpy.Document

/-- A cue adds its lines, and the block that is open stays open. -/
theorem entries_cue (d : Document) (cue : Stage.Cue) :
    (d.cue cue).entries.toList = d.entries.toList ++ cue.lines d.depth := by
  cases cue with
  | hide t => exact d.entries_statement (.hide t)
  | draw s lines =>
    show (d.shot s lines).entries.toList = _
    unfold shot
    cases lines with
    | nil => exact d.entries_statement (.shot s false)
    | cons line lines =>
      rw [if_neg (by simp), entries_block .atl (line :: lines) d (.shot s true)]
      simp [Stage.Cue.lines]

theorem entries_cues (cues : List Stage.Cue) (d : Document) :
    (cues.foldl cue d).entries.toList
      = d.entries.toList ++ cues.flatMap (Stage.Cue.lines d.depth) := by
  induction cues generalizing d with
  | nil => simp
  | cons cue cues ih =>
    have hdepth : (d.cue cue).depth = d.depth := (Within.cues [cue] d).depth_eq
    rw [List.foldl_cons, ih, entries_cue, hdepth, List.flatMap_cons, List.append_assoc]

end Rio.Renpy.Document

namespace Rio.Screenplay

open Renpy (Document Entry Statement)

variable {c : Context} {s s' t : State} {i : Instruction} {rest : List Instruction}
  {command : Command}

/-! ## What a drawing adds -/

/-- The lines that drawing the stage adds. -/
def drawnLines (c : Context) (s : State) : List Entry :=
  (s.stage.draw c.drawing).2.1.flatMap (Stage.Cue.lines s.document.depth)

theorem entries_draw (c : Context) (s : State) :
    (draw c s).2.document.entries.toList = s.document.entries.toList ++ drawnLines c s := by
  rw [draw_eq]
  exact Document.entries_cues _ _

theorem depth_draw (c : Context) (s : State) : (draw c s).2.document.depth = s.document.depth := by
  rw [draw_eq]
  exact (Document.Within.cues _ _).depth_eq

theorem drawnLines_eq_nil_iff (c : Context) (s : State) :
    drawnLines c s = [] ↔ (s.stage.draw c.drawing).2.1 = [] := by
  unfold drawnLines
  rw [List.flatMap_eq_nil_iff]
  constructor
  · intro hall
    refine List.eq_nil_iff_forall_not_mem.mpr fun cue hcue => ?_
    exact Stage.Cue.lines_ne_nil _ cue (hall cue hcue)
  · intro hnil cue hcue
    rw [hnil] at hcue
    cases hcue

/-- A drawing tells whether something was due. -/
theorem draw_fst_eq (c : Context) (s : State) : (draw c s).1 = s.stage.isDue :=
  s.stage.draw_changed_eq c.drawing

/-- So it tells whether it added lines. -/
theorem draw_fst_iff (c : Context) (s : State) : (draw c s).1 = true ↔ drawnLines c s ≠ [] := by
  rw [draw_fst_eq, Ne, drawnLines_eq_nil_iff, Stage.draw_eq_nil_iff, Bool.not_eq_false]

/-- Right after a drawing there is nothing to draw. -/
theorem draw_draw (c c' : Context) (s : State) : draw c' (draw c s).2 = (false, (draw c s).2) := by
  have hstage : (draw c s).2.stage.draw c'.drawing = ((draw c s).2.stage, [], false) := by
    rw [draw_eq]
    exact s.stage.draw_draw c.drawing c'.drawing
  generalize (draw c s).2 = t at hstage
  show ((t.stage.draw c'.drawing).2.2,
    (t.stage.draw c'.drawing).2.1.foldl State.cue { t with stage := (t.stage.draw c'.drawing).1 })
      = _
  rw [hstage]
  rfl

/-! ## What stands before an effect -/

/-- A document that ends in what a transition has drawn, and comments. -/
def EndsInDrawing (c : Context) (before : List Entry) (depth : Nat) : Prop :=
  ∃ i rest s method ms notes,
    Reached c (i :: rest) s ∧ Reading.ofInstruction i = .command (.transition method ms) ∧
    drawnLines c (announce c (s.arrive c i rest) i) ≠ [] ∧
    before = (announce c (s.arrive c i rest) i).document.entries.toList ++
      drawnLines c (announce c (s.arrive c i rest) i) ++ notes ∧
    depth = (announce c (s.arrive c i rest) i).document.depth ∧
    ∀ note ∈ notes, ∃ r, note = ⟨depth, .comment r⟩

/-- Every effect stands right behind what its transition has drawn. -/
def EffectsFollow (c : Context) (lines : List Entry) : Prop :=
  ∀ before depth effect after, lines = before ++ ⟨depth, .statement (.effect effect)⟩ :: after →
    EndsInDrawing c before depth

/-- A statement that is no effect. -/
def IsPlain (st : Statement) : Prop :=
  ∀ effect, st ≠ .effect effect

namespace EffectsFollow

variable {lines added : List Entry} {depth : Nat}

/-- Lines without an effect may be added. -/
theorem append (h : EffectsFollow c lines)
    (hadded : ∀ line ∈ added, ∀ st, line.content = .statement st → IsPlain st) :
    EffectsFollow c (lines ++ added) := by
  intro before depth effect after heq
  have hnot : (⟨depth, .statement (.effect effect)⟩ : Entry) ∉ added :=
    fun hmem => hadded _ hmem _ rfl effect rfl
  rcases List.append_eq_append_iff.mp heq with ⟨front, -, hfront⟩ | ⟨back, hback, hrest⟩
  · exact absurd (hfront ▸ List.mem_append_right _ List.mem_cons_self) hnot
  · cases back with
    | nil =>
      rw [List.nil_append] at hrest
      exact absurd (hrest ▸ List.mem_cons_self) hnot
    | cons line back =>
      obtain ⟨rfl, -⟩ := List.cons.inj hrest
      exact h before depth effect back hback

/-- So may the effect of a transition that has drawn. -/
theorem effect (h : EffectsFollow c lines) (hlines : EndsInDrawing c lines depth)
    (effect : String) :
    EffectsFollow c (lines ++ [⟨depth, .statement (.effect effect)⟩]) := by
  intro before depth' effect' after heq
  rcases List.append_eq_append_iff.mp heq with ⟨front, rfl, hfront⟩ | ⟨back, hback, hrest⟩
  · cases front with
    | nil =>
      cases hfront
      rwa [List.append_nil]
    | cons line front =>
      have hnil := (List.cons.inj hfront).2
      simp at hnil
  · cases back with
    | nil =>
      cases hrest
      rw [List.append_nil] at hback
      exact hback ▸ hlines
    | cons line back =>
      obtain ⟨rfl, -⟩ := List.cons.inj hrest
      exact h before depth' effect' back hback

end EffectsFollow

/-! ## Steps -/

/-- What was appended, line by line. -/
theorem exists_lines {d e : Document} {P : Statement → Prop} {added : List Statement}
    (hlines : d.entries.toList <+: e.entries.toList) (heq : e.statements = d.statements ++ added)
    (hadded : ∀ st ∈ added, P st) :
    ∃ lines, e.entries.toList = d.entries.toList ++ lines ∧
      ∀ line ∈ lines, ∀ st, line.content = .statement st → P st := by
  obtain ⟨lines, hlines⟩ := hlines
  refine ⟨lines, hlines.symm, fun line hline st hst => hadded st ?_⟩
  unfold Document.statements Document.rows at heq
  rw [← hlines, List.filterMap_append, List.map_append] at heq
  rw [← List.append_cancel_left heq]
  refine List.mem_map.mpr ⟨⟨line.depth, st⟩, List.mem_filterMap.mpr ⟨line, hline, ?_⟩, rfl⟩
  unfold Entry.row?
  rw [hst]

theorem isPlain_of_isCue {st : Statement} (h : st.isCue = true) : IsPlain st := by
  rintro effect rfl
  cases h

theorem isPlain_of_writes {st : Statement} (hcommand : ∀ method ms, command ≠ .transition method ms)
    (h : command.writes st = true) : IsPlain st := by
  rintro effect rfl
  cases command with
  | transition method ms => exact hcommand method ms rfl
  | _ => cases h

theorem allowedBefore_isPlain (c : Context) : AllowedBefore c IsPlain where
  pass := fun _ heq => by cases heq
  skip := fun _ st hst effect heq => by
    subst heq
    cases hst
  label := fun _ _ heq => by cases heq

/-- Only transitions write effects. -/
theorem written_step_of_not_transition (hi : i ∈ c.instructions) (s : State)
    (rest : List Instruction)
    (h : ∀ method ms, Reading.ofInstruction i ≠ .command (.transition method ms)) :
    Written IsPlain s (outcome (step c s i rest)) := by
  have hbefore := allowedBefore_isPlain c
  have hannounce : Written IsPlain s (announce c (s.arrive c i rest) i) :=
    (announce_arrive_acts hbefore hi rest).written
  have hends := stepEnds_outcome c s i rest
  generalize outcome (Screenplay.step c s i rest) = t at hends ⊢
  cases hends with
  | ending =>
    exact (closeBranches_acts (c := c) hbefore.pass i.addr).written.trans
      (.placeLabel (hbefore.label _) hbefore.pass _)
  | unhandled =>
    exact (arrive_acts hbefore hi rest).written.trans (.none (Document.statements_comment _ _))
  | malformed => exact hannounce
  | @command command _ hread =>
    have hwrites : ∀ st, command.writes st → IsPlain st := fun st hst =>
      isPlain_of_writes (fun method ms heq => h method ms (heq ▸ hread)) hst
    refine hannounce.trans ?_
    cases hexec : execute c i rest (announce c (s.arrive c i rest) i) command with
    | ok t => exact (execute_acts hwrites (fun _ _ _ _ heq => by cases heq) hexec).written
    | error halt => exact execute_error_written hwrites hexec

/-- What a transition that does not halt adds: what it drew, and then, unless it drew nothing and
such effects are left out, comments and its effect. -/
theorem entries_transition {addr : Nat} {method : Method} {ms : Int}
    (h : transition c s addr method ms = .ok s') :
    (drawnLines c s = [] ∧ s' = (draw c s).2) ∨
    ((c.profile.removeOrphanWith = true → drawnLines c s ≠ []) ∧
      ∃ notes effect, (∀ note ∈ notes, ∃ r, note = ⟨s.document.depth, .comment r⟩) ∧
        s'.document.entries.toList = s.document.entries.toList ++ drawnLines c s ++ notes ++
          [⟨s.document.depth, .statement (.effect effect)⟩]) := by
  have hdepth := depth_draw c s
  have hdissolve : ∀ time r, (dissolve (draw c s).2 time r).document.entries.toList =
      s.document.entries.toList ++ drawnLines c s ++ [⟨s.document.depth, .comment r⟩] ++
        [⟨s.document.depth, .statement (.effect ("Dissolve(" ++ time ++ ")"))⟩] := by
    intro time r
    show (((draw c s).2.document.comment r).statement _).entries.toList = _
    rw [Document.entries_statement, Document.entries_comment, entries_draw,
      Document.depth_comment, hdepth]
  have hone : ∀ r, ∀ note ∈ [(⟨s.document.depth, .comment r⟩ : Entry)],
      ∃ r', note = ⟨s.document.depth, .comment r'⟩ := fun r note hnote =>
    ⟨r, List.mem_singleton.mp hnote⟩
  unfold transition at h
  dsimp only at h
  split at h
  · -- nothing was drawn, and orphans are removed
    next horphan =>
    rw [Bool.and_eq_true, Bool.not_eq_true', ← Bool.not_eq_true, draw_fst_iff, Ne,
      Decidable.not_not] at horphan
    exact .inl ⟨horphan.1, (Except.ok.inj h).symm⟩
  · next hshown =>
    refine .inr ⟨fun hremove => ?_, ?_⟩
    · rw [hremove, Bool.and_true, Bool.not_eq_true', Bool.not_eq_false, draw_fst_iff] at hshown
      exact hshown
    · rcases showEffect_cases h with ⟨effect, rfl⟩ | rfl | rfl
      · refine ⟨[], effect, fun _ hnote => (by cases hnote), ?_⟩
        show ((draw c s).2.document.statement _).entries.toList = _
        rw [Document.entries_statement, entries_draw, hdepth, List.append_nil]
      · exact ⟨_, _, hone _, hdissolve _ _⟩
      · exact ⟨_, _, hone _, hdissolve _ _⟩

theorem EffectsFollow.written (h : EffectsFollow c s.document.entries.toList)
    (hwritten : Written IsPlain s s')
    (hlines : s.document.entries.toList <+: s'.document.entries.toList) :
    EffectsFollow c s'.document.entries.toList := by
  obtain ⟨added, heq, hadded⟩ := hwritten
  obtain ⟨lines, hlines, hplain⟩ := exists_lines hlines heq hadded
  rw [hlines]
  exact h.append hplain

/-- A transition draws, and an effect comes behind that, whether it halts or not. -/
theorem EffectsFollow.transition {method : Method} {ms : Int}
    (hremove : c.profile.removeOrphanWith = true) (hs : Reached c (i :: rest) s)
    (hread : Reading.ofInstruction i = .command (.transition method ms))
    (ht : t = announce c (s.arrive c i rest) i) (h : EffectsFollow c t.document.entries.toList) :
    EffectsFollow c (outcome (transition c t i.addr method ms)).document.entries.toList := by
  have hdrawn : EffectsFollow c (draw c t).2.document.entries.toList := by
    refine h.written (.draw (fun st => isPlain_of_isCue) c t) ?_
    rw [entries_draw]
    exact List.prefix_append _ _
  cases hexec : Screenplay.transition c t i.addr method ms with
  | error halt =>
    show EffectsFollow c halt.state.document.entries.toList
    have hhalted : Halted c t (.transition method ms) halt.state :=
      halted_of_error (show execute c i rest t (.transition method ms) = .error halt from hexec)
    generalize halt.state = u at hhalted ⊢
    -- a mask that is missing is asked for only after the drawing
    cases hhalted with
    | stage g => exact h
    | drawn => exact hdrawn
  | ok s' =>
    rcases entries_transition hexec with ⟨-, rfl⟩ | ⟨hdrew, notes, effect, hnotes, heq⟩
    · exact hdrawn
    · show EffectsFollow c s'.document.entries.toList
      rw [entries_draw] at hdrawn
      rw [heq]
      refine (hdrawn.append fun note hnote st hst => ?_).effect ?_ effect
      · obtain ⟨r, rfl⟩ := hnotes note hnote
        cases hst
      · subst ht
        exact ⟨i, rest, s, method, ms, notes, hs, hread, hdrew hremove, rfl, rfl, hnotes⟩

/-- A step keeps the effects behind what was drawn for them, whether it halts or not. -/
theorem EffectsFollow.step (hremove : c.profile.removeOrphanWith = true)
    (hs : Reached c (i :: rest) s) (h : EffectsFollow c s.document.entries.toList) :
    EffectsFollow c (outcome (step c s i rest)).document.entries.toList := by
  have hi : i ∈ c.instructions := Runs.mem hs
  by_cases htransition : ∃ method ms, Reading.ofInstruction i = .command (.transition method ms)
  · obtain ⟨method, ms, hread⟩ := htransition
    have hstep : Screenplay.step c s i rest
        = Screenplay.transition c (announce c (s.arrive c i rest) i) i.addr method ms :=
      step_of_reading hread s rest
    have hacts : Acts c IsPlain s (announce c (s.arrive c i rest) i) :=
      announce_arrive_acts (allowedBefore_isPlain c) hi rest
    rw [hstep]
    exact (h.written hacts.written hacts.entries_isPrefix).transition hremove hs hread rfl
  · exact h.written
      (written_step_of_not_transition hi s rest fun method ms heq => htransition ⟨method, ms, heq⟩)
      (entries_step hi s rest)

/-! ## Runs -/

theorem EffectsFollow.comment {d : Document} (h : EffectsFollow c d.entries.toList)
    (r : Renpy.Remark) :
    EffectsFollow c (d.comment r).entries.toList := by
  rw [Document.entries_comment]
  refine h.append fun line hline st hst => ?_
  rw [List.mem_singleton.mp hline] at hst
  cases hst

theorem EffectsFollow.statement {d : Document} {st : Statement}
    (h : EffectsFollow c d.entries.toList) (hst : IsPlain st) :
    EffectsFollow c (d.statement st).entries.toList := by
  rw [Document.entries_statement]
  refine h.append fun line hline st' hst' => ?_
  rw [List.mem_singleton.mp hline] at hst'
  cases hst'
  exact hst

theorem effectsFollow_start (c : Context) : EffectsFollow c (start c).document.entries.toList := by
  have hnone : EffectsFollow c (Document.entries {}).toList := by
    intro before depth effect after heq
    simp at heq
  exact (hnone.comment .generated).statement fun _ heq => by cases heq

theorem effectsFollow_of_reached (hremove : c.profile.removeOrphanWith = true)
    (h : Reached c rest s) :
    EffectsFollow c s.document.entries.toList := by
  induction h with
  | here => exact effectsFollow_start c
  | @step i rest t t' hruns hstep ih =>
    have hnext := ih.step hremove hruns
    rw [hstep] at hnext
    exact hnext

theorem effectsFollow_of_outcome {p : Screenplay} (hremove : c.profile.removeOrphanWith = true)
    (h : Outcome c p) :
    EffectsFollow c p.document.entries.toList := by
  cases h with
  | @complete s hs _ hdocument =>
    -- closing the blocks adds nothing but `pass`
    obtain ⟨n, hn⟩ := s.document.statements_closeAll
    obtain ⟨lines, hlines, hplain⟩ := exists_lines (P := IsPlain) s.document.entries_closeAll hn
      fun st hst => List.eq_of_mem_replicate hst ▸ (allowedBefore_isPlain c).pass
    rw [hdocument, hlines]
    exact (effectsFollow_of_reached hremove hs).append hplain
  | @halted i rest s halt hs hstep _ hdocument =>
    have hhalt := (effectsFollow_of_reached hremove hs).step hremove hs
    rw [hstep] at hhalt
    rw [hdocument]
    exact (hhalt.comment .interrupted).statement fun _ heq => by cases heq

/-- A drawing tells whether it added lines, and they are statements. It adds some just if
something is due on the stage, so a drawing right after another one adds none. With the orphans
removed, every effect of a script stands right behind the lines that its own transition has drawn,
apart from comments. -/
theorem transpile_effects (name : String) (script : List UInt8) (p : Profile) :
    (∀ c s, (draw c s).2.document.entries.toList = s.document.entries.toList ++ drawnLines c s ∧
      (∀ line ∈ drawnLines c s, ∃ st, line.content = .statement st ∧ st.isCue = true) ∧
      ((draw c s).1 = true ↔ drawnLines c s ≠ []) ∧ (draw c s).1 = s.stage.isDue ∧
      ∀ c', draw c' (draw c s).2 = (false, (draw c s).2)) ∧
    (p.removeOrphanWith = true →
      ∀ before depth effect after,
        (transpile name script p).document.entries.toList
            = before ++ ⟨depth, .statement (.effect effect)⟩ :: after →
          EndsInDrawing (scriptContext name script p) before depth) := by
  refine ⟨fun c s => ⟨entries_draw c s, ?_, draw_fst_iff c s, draw_fst_eq c s,
    fun c' => draw_draw c c' s⟩, ?_⟩
  · exact fun line hline => Stage.exists_of_mem_lines hline
  · exact fun hremove => effectsFollow_of_outcome hremove (outcome_transpile name script p)

/-- The effect that a line shows. -/
def effectOf? (line : Entry) : Option String :=
  match line.content with
  | .statement (.effect effect) => some effect
  | _ => none

theorem content_of_effectOf? {line : Entry} {effect : String} (h : effectOf? line = some effect) :
    line.content = .statement (.effect effect) := by
  unfold effectOf? at h
  split at h
  · next heq =>
    cases h
    exact heq
  · cases h

/-- A background, a transition by an unknown method, and a cut with nothing to show. -/
def dissolveAndCut : List UInt8 :=
  [0x46, 0, 0, 0, 0, 0, 0, 0, 0, 0, 0x61, 0, 0x4a, 51, 100, 0, 0, 0x4a, 0, 100, 0, 0, 0x0a, 0]

/-- The first transition becomes a dissolve with a comment before it, and the cut is left out. -/
theorem effects_of_dissolveAndCut :
    ({} : Profile).removeOrphanWith = true ∧
      ((transpile "a" dissolveAndCut {}).document.entries.toList.filterMap effectOf?).length = 1 ∧
      ∃ before depth effect after,
        (transpile "a" dissolveAndCut {}).document.entries.toList
            = before ++ ⟨depth, .statement (.effect effect)⟩ :: after ∧
          EndsInDrawing (scriptContext "a" dissolveAndCut {}) before depth := by
  have hbuild : BlockGraph.build (Bytecode.decode .standard true dissolveAndCut)
      = ⟨[⟨0, some 24, .leave, none, none, [], []⟩]⟩ :=
    BlockGraph.build_eq_of_perm (by decide +kernel) (by decide)
  have hone : ((transpile "a" dissolveAndCut {}).document.entries.toList.filterMap effectOf?).length
      = 1 := by
    rw [(transpile_of_build "a" dissolveAndCut {} hbuild).1]
    decide +kernel
  obtain ⟨effect, heffects⟩ := List.length_eq_one_iff.mp hone
  have hmem :
      effect ∈ (transpile "a" dissolveAndCut {}).document.entries.toList.filterMap effectOf? := by
    rw [heffects]
    exact List.mem_cons_self
  obtain ⟨⟨depth, content⟩, hline, heffect⟩ := List.mem_filterMap.mp hmem
  obtain rfl : content = .statement (.effect effect) := content_of_effectOf? heffect
  obtain ⟨before, after, hsplit⟩ := List.append_of_mem hline
  exact ⟨rfl, hone, before, depth, effect, after, hsplit,
    (transpile_effects "a" dissolveAndCut {}).2 rfl _ _ _ _ hsplit⟩

end Rio.Screenplay
