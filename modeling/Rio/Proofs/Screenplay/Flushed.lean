import Rio.Proofs.Screenplay.Display
import Rio.Proofs.Screenplay.Guards
import Rio.Proofs.Screenplay.Memory

/-!
# What a drawing leaves undrawn

A drawing looks at a group of places only if the group asks for it or a new background clears the
screen. So a change must make its group ask, or the change is not drawn:

> `Stage.Asks`: where a picture is dirty or a place is to be cleared, the group asks to be drawn.

All changes keep this but one. To show a foreground where it already stands changes nothing but
the tint, and the tint makes the picture dirty without making the group ask (`Retints`).
`transpile_flushes` says that nothing else is left undrawn: after a drawing no place is to be
cleared, neither background nor object is dirty, and a foreground that is dirty was retinted in
its place before. `retinted_undrawn` is such a case.
-/

namespace Rio.Stage

variable {g : Stage} {retinted retinted' : Nat → Prop}

/-! ## One place -/

/-- What waits in a place to be drawn or cleared makes its group ask, but for a picture that was
only `retinted`. -/
structure SlotAsks (slot : Option Slot) (redraw : Bool) (retinted : Prop) : Prop where
  removal : ∀ taken, slot = some taken → taken.pendingRemoval = true → redraw = true
  dirty : ∀ p pending, slot = some ⟨.picture p, pending⟩ → p.dirty = true →
    redraw = true ∨ p.tintChanged = true ∧ retinted

namespace SlotAsks

variable {slot : Option Slot} {taken taken' : Slot} {redraw redraw' : Bool} {R R' : Prop}

/-- A group that asks to be drawn owes nothing. -/
theorem asked (slot : Option Slot) : SlotAsks slot true R :=
  ⟨fun _ _ _ => rfl, fun _ _ _ _ => .inl rfl⟩

/-- What stands in for a picture is never drawn, so it asks for nothing. -/
theorem standIn (reference : String) : SlotAsks (some ⟨.standIn reference, false⟩) redraw R := by
  constructor
  · rintro taken ⟨⟩ hpending
    cases hpending
  · rintro p pending ⟨⟩

theorem mono (h : SlotAsks slot redraw R) (hredraw : redraw = true → redraw' = true) (hR : R → R') :
    SlotAsks slot redraw' R' := by
  refine ⟨fun taken ht hp => hredraw (h.removal taken ht hp), fun p pending hp hdirty => ?_⟩
  exact (h.dirty p pending hp hdirty).imp hredraw (And.imp_right hR)

/-- A replacement asks unless it replaces nothing. -/
theorem replace {name : String} {x y : Int} {changed : Bool} (h : SlotAsks (some taken) redraw R)
    (hreplace : taken.replace name x y = (taken', .ok changed)) :
    SlotAsks (some taken') (redraw || changed) R := by
  obtain ⟨figure, pending⟩ := taken
  cases figure with
  | standIn reference => cases hreplace
  | picture p =>
    cases hreplace
    by_cases hdiffers : p.differs name x y = true
    · rw [hdiffers, Bool.or_true]
      exact asked _
    · have hkept := Bool.eq_false_iff.mpr hdiffers
      rw [Picture.replace_of_not_differs hkept, hkept, Bool.or_false]
      constructor
      · rintro taken ⟨⟩ hpending
        cases hpending
      · rintro q pending' ⟨⟩ hdirty
        exact h.dirty p pending rfl hdirty

/-- A tint asks for nothing. -/
theorem tint {tint : Int} (h : SlotAsks (some taken) redraw R)
    (hR : ∀ p pending, taken = ⟨.picture p, pending⟩ → p.tint ≠ tint → redraw = true ∨ R) :
    SlotAsks (some { taken with figure := taken.figure.map (·.setTint tint) }) redraw R := by
  obtain ⟨figure, pending⟩ := taken
  cases figure with
  | standIn reference => exact h
  | picture p =>
    constructor
    · rintro taken ⟨⟩ hpending
      exact h.removal _ rfl hpending
    · rintro q pending' ⟨⟩ hdirty
      show redraw = true ∨ (p.setTint tint).tintChanged = true ∧ R
      replace hdirty : (p.setTint tint).dirty = true := hdirty
      by_cases htint : p.tint = tint
      · rw [Picture.setTint_of_eq htint] at hdirty ⊢
        exact h.dirty p pending rfl hdirty
      · rw [Picture.setTint_of_ne htint]
        rcases hR p pending rfl htint with hredraw | hret
        · exact .inl hredraw
        · exact .inr ⟨rfl, hret⟩

/-- After it was drawn a place asks for nothing. -/
theorem after_drawSlot (drawing : Drawing) (cleared : Bool) (tag : Renpy.Tag)
    (shot : Picture → Renpy.Shot) (slot : Option Slot) :
    SlotAsks (drawSlot drawing cleared tag shot slot).1 false R := by
  have hempty : SlotAsks none false R :=
    ⟨fun _ hslot => (by cases hslot), fun _ _ hslot => (by cases hslot)⟩
  have hclean : ∀ p, p.dirty = false → SlotAsks (some ⟨.picture p, false⟩) false R := by
    intro p hp
    constructor
    · rintro taken ⟨⟩ hpending
      cases hpending
    · rintro q pending ⟨⟩ hdirty
      rw [hp] at hdirty
      cases hdirty
  cases slot with
  | none => exact hempty
  | some taken =>
    obtain ⟨figure, pending⟩ := taken
    cases pending with
    | true => exact hempty
    | false =>
      cases figure with
      | standIn reference => exact standIn reference
      | picture p =>
        rw [drawSlot_picture, if_neg Bool.false_ne_true]
        split
        · exact hclean _ rfl
        · next hsame =>
          rw [Bool.or_eq_true, not_or] at hsame
          exact hclean p (Bool.eq_false_iff.mpr hsame.2)

end SlotAsks

/-! ## The whole stage -/

/-- What waits to be drawn or cleared makes its group ask, but for foregrounds that were only
`retinted`. -/
structure Asks (g : Stage) (retinted : Nat → Prop) : Prop where
  background : ∀ p, g.background = some p → p.dirty = true → g.backgroundRedraw = true
  foreground : ∀ k, SlotAsks (g.foreground? k) g.foregroundRedraw (retinted k)
  object : SlotAsks g.object g.objectRedraw False

namespace Asks

theorem mono (h : g.Asks retinted) (hmono : ∀ k, retinted k → retinted' k) : g.Asks retinted' :=
  ⟨h.background, fun k => (h.foreground k).mono id (hmono k), h.object⟩

/-- Something is put into a foreground place. -/
theorem setForeground {index : Nat} {slot : Slot} {redraw : Bool} (h : g.Asks retinted)
    (hredraw : g.foregroundRedraw = true → redraw = true)
    (hslot : SlotAsks (some slot) redraw (retinted index)) :
    Asks { g.setForeground index slot with foregroundRedraw := redraw } retinted := by
  refine ⟨h.background, fun k => ?_, h.object⟩
  show SlotAsks ((g.setForeground index slot).foreground? k) redraw (retinted k)
  rw [foreground?_setForeground]
  by_cases hk : k = index
  · subst hk
    rw [if_pos rfl]
    exact hslot
  · rw [if_neg hk]
    exact (h.foreground k).mono hredraw id

/-- Drawing answers all that was asked, so what still waits was only retinted. -/
theorem draw (h : g.Asks retinted) (drawing : Drawing) : Asks (g.draw drawing).1 retinted := by
  have hdrawn := drawn drawing g
  refine ⟨fun p hp hdirty => ?_, fun k => ?_, ?_⟩
  · -- the background is drawn if it is dirty, for then it asks
    rw [hdrawn.background] at hp
    split at hp
    · obtain ⟨q, -, rfl⟩ := Option.map_eq_some_iff.mp hp
      cases hdirty
    · next hclears =>
      refine absurd ?_ hclears
      rw [clears, h.background p hp hdirty, hp]
      exact hdirty
  · rw [hdrawn.foreground, hdrawn.foregroundRedraw]
    split
    · exact SlotAsks.after_drawSlot ..
    · next hdue =>
      refine (h.foreground k).mono (fun hredraw => absurd ?_ hdue) id
      rw [hredraw, Bool.or_true]
  · rw [hdrawn.object, hdrawn.objectRedraw]
    unfold drawnObject
    split
    · exact SlotAsks.after_drawSlot ..
    · next hdue =>
      refine h.object.mono (fun hredraw => absurd ?_ hdue) id
      rw [hredraw, Bool.or_true]

end Asks

/-- Nothing waits to be drawn or cleared, but for foregrounds that were only `retinted`. -/
structure Flushed (g : Stage) (retinted : Nat → Prop) : Prop where
  background : ∀ p, g.background = some p → p.dirty = false
  object : ∀ slot, g.object = some slot → slot.pendingRemoval = false ∧ slot.figure.isDirty = false
  removal : ∀ k slot, g.foreground? k = some slot → slot.pendingRemoval = false
  foreground : ∀ k slot, g.foreground? k = some slot → slot.figure.isDirty = true →
    retinted k ∧ ∃ p, slot.figure = .picture p ∧ p.tintChanged = true

/-- After a drawing no group asks, so what waits was not asked for. -/
theorem Asks.flushed (h : g.Asks retinted) (drawing : Drawing) :
    Flushed (g.draw drawing).1 retinted := by
  have hdrawn := drawn drawing g
  have hasks := h.draw drawing
  have hforeground := hdrawn.foregroundRedraw ▸ hasks.foreground
  have hobject := hdrawn.objectRedraw ▸ hasks.object
  refine ⟨fun p hp => ?_, fun slot hslot => ⟨?_, ?_⟩, fun k slot hslot => ?_,
    fun k slot hslot hdirty => ?_⟩
  · rw [Bool.eq_false_iff]
    intro hdirty
    have hredraw := hasks.background p hp hdirty
    rw [hdrawn.backgroundRedraw] at hredraw
    cases hredraw
  · rw [Bool.eq_false_iff]
    exact fun hpending => Bool.false_ne_true (hobject.removal slot hslot hpending)
  · obtain ⟨figure, pending⟩ := slot
    cases figure with
    | standIn reference => rfl
    | picture p =>
      rw [Bool.eq_false_iff]
      intro hdirty
      rcases hobject.dirty p pending hslot hdirty with hredraw | ⟨-, hnever⟩
      · cases hredraw
      · exact hnever
  · rw [Bool.eq_false_iff]
    exact fun hpending => Bool.false_ne_true ((hforeground k).removal slot hslot hpending)
  · obtain ⟨figure, pending⟩ := slot
    cases figure with
    | standIn reference => cases hdirty
    | picture p =>
      rcases (hforeground k).dirty p pending hslot hdirty with hredraw | ⟨htint, hret⟩
      · cases hredraw
      · exact ⟨hret, p, rfl, htint⟩

end Rio.Stage

namespace Rio.Screenplay

open Stage (Asks SlotAsks Flushed)

variable {c : Context} {s s' f : State} {i : Instruction} {rest : List Instruction}
  {command : Command} {R : Nat → Prop}

/-! ## Commands of the scenery -/

/-- A command shows the picture in a place where it stands, in another tint. -/
def Retints (c : Context) (g : Stage) (command : Command) (k : Nat) : Prop :=
  ∃ name x y untinted p pending, command = .foreground k name x y untinted ∧
    g.foreground? k = some ⟨.picture p, pending⟩ ∧
    (g.inSegment = true ∨ p.differs (c.text name) x y = false) ∧
    p.tint ≠ if untinted then 0 else if g.tint = 0 then p.tint else g.tint

/-- Another background asks to be drawn, and the same one keeps what it asked. -/
theorem asks_setBackground {g : Stage} (h : g.Asks R) (name : String) (x y : Int) :
    (setBackground g name x y).Asks R := by
  have hfresh :
      Asks { g with background := some (.new name x y .image), backgroundRedraw := true } R :=
    ⟨fun _ _ _ => rfl, h.foreground, h.object⟩
  unfold setBackground
  dsimp only
  split
  · next p hp =>
    split
    · refine ⟨fun q hq hdirty => ?_, h.foreground, h.object⟩
      obtain rfl := Option.some.inj hq
      dsimp only
      by_cases hdiffers : p.differs name x y = true
      · rw [hdiffers, Bool.or_true]
      · rw [Stage.Picture.replace_of_not_differs (Bool.eq_false_iff.mpr hdiffers)] at hdirty
        rw [h.background p hp hdirty, Bool.true_or]
    · exact hfresh
  · exact hfresh

/-- A viewport that leaves the picture dirty asks for it. -/
theorem asks_setViewport (h : s.stage.Asks R) (zoom xpan ypan : Int) :
    (setViewport s zoom xpan ypan).stage.Asks R := by
  unfold setViewport
  split
  · refine ⟨fun q hq hdirty => ?_, h.foreground, h.object⟩
    obtain rfl := Option.some.inj hq
    dsimp only
    rw [hdirty, Bool.or_true]
  · exact h

/-- A foreground that is put into its place asks, unless it is there already. -/
theorem asks_putForeground {addr index : Nat} {name : String} {x y : Int} (h : s.stage.Asks R)
    (hput : putForeground s addr index name x y = .ok s') :
    s'.stage.Asks R ∧ s'.stage.tint = s.stage.tint ∧
      (s'.stage.foregroundRedraw = true ∨
        ∀ p pending, s'.stage.foreground? index = some ⟨.picture p, pending⟩ →
          ∃ pending', s.stage.foreground? index = some ⟨.picture p, pending'⟩ ∧
            (s.stage.inSegment = true ∨ p.differs name x y = false)) := by
  unfold putForeground at hput
  split at hput
  · obtain rfl := Except.ok.inj hput
    exact ⟨h.setForeground (fun _ => rfl) (.asked _), rfl, .inl rfl⟩
  · next slot hslot =>
    split at hput
    -- during an animation the picture stays as it is
    · next hsegment =>
      obtain rfl := Except.ok.inj hput
      exact ⟨h, rfl, .inr fun p pending hp => ⟨pending, hp, .inl hsegment⟩⟩
    · cases hreplace : slot.replace name x y with
      | mk slot' result =>
        rw [hreplace] at hput
        cases result with
        | error cause => cases hput
        | ok changed =>
          obtain rfl := Except.ok.inj hput
          have hasks := SlotAsks.replace (hslot ▸ h.foreground index) hreplace
          refine ⟨h.setForeground (fun hredraw => ?_) hasks, rfl, ?_⟩
          · show (s.stage.foregroundRedraw || changed) = true
            rw [hredraw, Bool.true_or]
          · obtain ⟨figure, pending⟩ := slot
            cases figure with
            | standIn reference => cases hreplace
            | picture p =>
              cases hreplace
              -- the same picture at the same place is left alone
              cases hdiffers : p.differs name x y with
              | true => exact .inl (Bool.or_true _)
              | false =>
                refine .inr fun q pending' hq => ⟨pending, ?_⟩
                have hsame := Stage.Picture.replace_of_not_differs hdiffers
                change (s.stage.setForeground index _).foreground? index = _ at hq
                rw [Stage.foreground?_setForeground, if_pos rfl, hsame] at hq
                cases hq
                exact ⟨hslot, .inr hdiffers⟩

/-- A new or changed foreground asks; a tint does not, and that is where a picture may be left
waiting. -/
theorem asks_showForeground {addr index : Nat} {name : List UInt8} {x y : Int} {untinted : Bool}
    (h : s.stage.Asks R)
    (hshow : showForeground s addr index (c.text name) x y untinted = .ok s') :
    s'.stage.Asks fun k => R k ∨ Retints c s.stage (.foreground index name x y untinted) k := by
  unfold showForeground at hshow
  cases hput : putForeground s addr index (c.text name) x y with
  | error halt =>
    rw [hput] at hshow
    cases hshow
  | ok t =>
    rw [hput] at hshow
    obtain rfl := Except.ok.inj hshow
    obtain ⟨hasks, htint, hstands⟩ := asks_putForeground h hput
    replace hasks : t.stage.Asks fun k =>
        R k ∨ Retints c s.stage (.foreground index name x y untinted) k := hasks.mono
          fun k => Or.inl
    -- what is not asked for stands where it stood
    have happly : ∀ slot tint, t.stage.foreground? index = some slot →
        (∀ p : Stage.Picture, p.tint ≠ tint →
          p.tint ≠ if untinted then 0 else if s.stage.tint = 0 then p.tint else s.stage.tint) →
        (t.stage.setForeground index { slot with figure := slot.figure.map (·.setTint tint) }).Asks
          fun k => R k ∨ Retints c s.stage (.foreground index name x y untinted) k := by
      intro slot tint hslot hnew
      refine hasks.setForeground id (SlotAsks.tint (hslot ▸ hasks.foreground index) ?_)
      rintro p pending rfl hne
      refine hstands.imp id fun hsame => ?_
      obtain ⟨pending', hp, hkept⟩ := hsame p pending hslot
      exact .inr ⟨name, x, y, untinted, p, pending', rfl, hp, hkept, hnew p hne⟩
    show (tintForeground t.stage index untinted).Asks _
    unfold tintForeground
    split
    · exact hasks
    · next slot hslot =>
      split
      · next huntinted => exact happly slot 0 hslot fun p hne => by rwa [if_pos huntinted]
      · next huntinted =>
        split
        · exact hasks
        · next hzero =>
          refine happly slot t.stage.tint hslot fun p hne => ?_
          rw [htint] at hne hzero
          rwa [if_neg huntinted, if_neg fun h0 => hzero (beq_iff_eq.mpr h0)]

/-- The object asks if it is new or differs. -/
theorem asks_showObject {addr : Nat} {name : String} {x y : Int} (h : s.stage.Asks R)
    (hshow : showObject s addr name x y = .ok s') : s'.stage.Asks R := by
  have hfresh : ∀ slot, Asks { s.stage with object := slot, objectRedraw := true } R :=
    fun slot => ⟨h.background, h.foreground, .asked _⟩
  unfold showObject at hshow
  dsimp only at hshow
  split at hshow
  · next slot hslot =>
    split at hshow
    · cases hreplace : slot.replace name x y with
      | mk slot' result =>
        rw [hreplace] at hshow
        cases result with
        | error cause => cases hshow
        | ok changed =>
          obtain rfl := Except.ok.inj hshow
          exact ⟨h.background, h.foreground, SlotAsks.replace (hslot ▸ h.object) hreplace⟩
    · obtain rfl := Except.ok.inj hshow
      exact hfresh _
  · obtain rfl := Except.ok.inj hshow
    exact hfresh _

/-- A place that is to be cleared asks at once. -/
theorem asks_clearForeground (h : s.stage.Asks R) (index : Int) :
    (clearForeground s index).stage.Asks R := by
  unfold clearForeground
  dsimp only
  split
  · exact h.setForeground (fun _ => rfl) (.asked _)
  · exact h

theorem asks_clearObject (h : s.stage.Asks R) : (clearObject s).stage.Asks R := by
  unfold clearObject
  dsimp only
  split
  · exact ⟨h.background, h.foreground, .asked _⟩
  · exact h

/-- The hooks of a call put in only what is drawn elsewhere. -/
theorem asks_call (h : s.stage.Asks R) (script : List UInt8) : (call c s script).stage.Asks R := by
  have hhooks : ∀ (actions : List HookAction) (t : State), t.stage.Asks R →
      (actions.foldl applyHook t).stage.Asks R := by
    intro actions
    induction actions with
    | nil => exact fun t ht => ht
    | cons action actions ih =>
      intro t ht
      refine ih _ ?_
      cases action with
      | statement text => exact ht
      | standIn slot reference => exact ht.setForeground id (.standIn reference)
  exact hhooks _ (s.emit _) h

/-- What is asked after a drawing is what was asked before it, at most. -/
theorem asks_draw (h : s.stage.Asks R) (c : Context) : (draw c s).2.stage.Asks R := by
  rw [stage_draw]
  exact h.draw c.drawing

/-- A transition draws; the effect behind it is not on the stage. -/
theorem asks_transition {addr : Nat} {method : Method} {ms : Int} (h : s.stage.Asks R)
    (hexec : transition c s addr method ms = .ok s') : s'.stage.Asks R := by
  unfold transition at hexec
  dsimp only at hexec
  split at hexec
  · obtain rfl := Except.ok.inj hexec
    exact asks_draw h c
  · rw [show s'.stage = (draw c s).2.stage from congrArg Memory.stage (memory_showEffect hexec)]
    exact asks_draw h c

theorem asks_moveBackground (h : s.stage.Asks R) (kind : Stage.FrameKind) (m : Motion) :
    (moveBackground s kind m).stage.Asks R := by
  unfold moveBackground
  split
  · exact ⟨fun _ _ _ => rfl, h.foreground, h.object⟩
  · exact h

/-- A motion makes its picture dirty and asks for it. -/
theorem asks_moveForeground {addr : Nat} {kind : Stage.FrameKind} {index : Int} {m : Motion}
    (h : s.stage.Asks R) (hmove : moveForeground s addr kind index m = .ok s') :
    s'.stage.Asks R := by
  unfold moveForeground at hmove
  split at hmove
  · obtain rfl := Except.ok.inj hmove
    exact h
  · split at hmove
    · obtain rfl := Except.ok.inj hmove
      exact h.setForeground (fun _ => rfl) (.asked _)
    · cases hmove

/-- By cases on the target of the motion. -/
theorem asks_keyFrame {motion : Option Motion} (h : s.stage.Asks R)
    (hexec : keyFrame c s i motion = .ok s') : s'.stage.Asks R := by
  unfold keyFrame at hexec
  split at hexec
  · obtain rfl := Except.ok.inj hexec
    exact h
  · split at hexec
    · unfold addMotion at hexec
      split at hexec
      · obtain rfl := Except.ok.inj hexec
        exact asks_moveBackground h ..
      · split at hexec
        · obtain rfl := Except.ok.inj hexec
          exact asks_moveBackground h ..
        · split at hexec
          · exact asks_moveForeground h hexec
          · exact asks_moveForeground h hexec
    · cases hexec

theorem asks_play (h : s.stage.Asks R) (rest : List Instruction) :
    (play c s rest).stage.Asks R := by
  have hsegment : ∀ inSegment, Asks { s.stage with inSegment } R :=
    fun _ => ⟨h.background, h.foreground, h.object⟩
  unfold play
  split
  · exact asks_draw (s := { s with stage := { s.stage with inSegment := false } })
      (hsegment false) c
  · exact hsegment true

/-- Every command keeps what `Asks` says, but for the foreground that it retints. -/
theorem asks_execute (h : s.stage.Asks R) (hexec : execute c i rest s command = .ok s') :
    s'.stage.Asks fun k => R k ∨ Retints c s.stage command k := by
  have hkept : s'.stage.Asks R → s'.stage.Asks fun k => R k ∨ Retints c s.stage command k :=
    fun hasks => hasks.mono fun k => Or.inl
  cases hscenery : command.isScenery with
  | false =>
    rw [stage_execute hscenery hexec]
    exact h.mono fun k => Or.inl
  | true =>
    cases command with
    | call script =>
      obtain rfl := Except.ok.inj hexec
      exact hkept (asks_call h script)
    | background name x y =>
      obtain rfl := Except.ok.inj hexec
      exact hkept (asks_setBackground h ..)
    | viewport zoom xpan ypan =>
      obtain rfl := Except.ok.inj hexec
      exact hkept (asks_setViewport h ..)
    | foreground index name x y untinted => exact asks_showForeground h hexec
    | tint | mask =>
      obtain rfl := Except.ok.inj hexec
      exact hkept ⟨h.background, h.foreground, h.object⟩
    | object name x y => exact hkept (asks_showObject h hexec)
    | clearForeground index =>
      obtain rfl := Except.ok.inj hexec
      exact hkept (asks_clearForeground h index)
    | clearObject =>
      obtain rfl := Except.ok.inj hexec
      exact hkept (asks_clearObject h)
    | transition method ms => exact hkept (asks_transition h hexec)
    | keyFrame motion => exact hkept (asks_keyFrame h hexec)
    | play =>
      obtain rfl := Except.ok.inj hexec
      exact hkept (asks_play h rest)
    | _ => cases hscenery

/-! ## The whole run -/

/-- An instruction of the run retinted the picture in a place, before `rest`. -/
def Retinted (c : Context) (rest : List Instruction) (k : Nat) : Prop :=
  ∃ i later s command, Reached c (i :: later) s ∧ rest <:+ later ∧
    Reading.ofInstruction i = .command command ∧ Retints c s.stage command k

/-- What was retinted before an instruction was so before the next one. -/
theorem Retinted.tail {k : Nat} (h : Retinted c (i :: rest) k) : Retinted c rest k := by
  obtain ⟨j, later, s, command, hs, hsuffix, hread, hretints⟩ := h
  exact ⟨j, later, s, command, hs, (List.suffix_cons i rest).trans hsuffix, hread, hretints⟩

/-- A step keeps the debt of the stage, or adds the picture that its instruction retints. -/
theorem asks_step (h : s.stage.Asks (Retinted c (i :: rest))) (hs : Reached c (i :: rest) s)
    (hstep : step c s i rest = .ok s') : s'.stage.Asks (Retinted c rest) := by
  have hsame : s'.stage = s.stage → s'.stage.Asks (Retinted c rest) := by
    intro hstage
    rw [hstage]
    exact h.mono fun k => Retinted.tail
  cases stepped_of_ok hstep with
  | ending hend =>
    have hmemory : ((s.closeBranches i.addr).placeLabel c i.addr).memory = s.memory := by
      rw [memory_placeLabel, memory_closeBranches]
    exact hsame (congrArg Memory.stage hmemory)
  | unhandled hend hread =>
    exact hsame (congrArg Memory.stage (memory_arrive s i rest))
  | @command command _ hend hread hexec =>
    have hstage := stage_announce_arrive (c := c) s i rest
    refine (asks_execute (hstage ▸ h) hexec).mono ?_
    rintro k (hbefore | hnow)
    · exact hbefore.tail
    · rw [hstage] at hnow
      exact ⟨i, rest, s, command, hs, List.suffix_rfl, hread, hnow⟩

/-- By induction on the run, all that waits unasked was retinted by an instruction. -/
theorem asks_reached (h : Reached c rest s) : s.stage.Asks (Retinted c rest) := by
  induction h with
  | here =>
    -- on the empty stage nothing waits
    have hempty : ∀ {redraw : Bool} {R : Prop}, SlotAsks none redraw R :=
      ⟨fun _ hslot => (by cases hslot), fun _ _ hslot => (by cases hslot)⟩
    exact ⟨fun p hp => (by cases hp), fun k => hempty, hempty⟩
  | step hs hstep ih => exact asks_step ih hs hstep

/-- The drawings of a run come at instructions that it reaches. -/
theorem exists_reached_of_mem_flushes {l : List Instruction} (h : f ∈ flushes c s l) :
    ∃ i rest t, Runs c l s (i :: rest) t ∧ flush? c t i rest = some f := by
  induction l generalizing s with
  | nil => cases h
  | cons i rest ih =>
    unfold flushes at h
    rcases List.mem_append.mp h with h | h
    · exact ⟨i, rest, s, .here, Option.mem_toList.mp h⟩
    · split at h
      · next s' hstep =>
        obtain ⟨j, later, t, ht, hflush⟩ := ih h
        exact ⟨j, later, t, Runs.trans (.step .here hstep) ht, hflush⟩
      · cases h

/-- A drawing is one of a stage that is as it was before the instruction, but for the animation. -/
theorem flushed_of_flush? (h : s.stage.Asks R) (hflush : flush? c s i rest = some f) :
    f.stage.Flushed R := by
  have hstage := stage_announce_arrive (c := c) s i rest
  unfold flush? at hflush
  dsimp only at hflush
  split at hflush
  · obtain rfl := Option.some.inj hflush
    rw [stage_draw, hstage]
    exact h.flushed c.drawing
  · split at hflush
    · obtain rfl := Option.some.inj hflush
      rw [stage_draw, hstage]
      exact Asks.flushed (g := { s.stage with inSegment := false })
        ⟨h.background, h.foreground, h.object⟩ c.drawing
    · cases hflush
  · cases hflush

end Rio.Screenplay

namespace Rio

open Screenplay

/-- Before every instruction, what waits to be drawn or cleared makes its group ask, and after
every drawing nothing waits, but for foregrounds that an instruction before the drawing retinted
where they stood. -/
theorem transpile_flushes (name : String) (script : List UInt8) (profile : Profile) :
    (∀ rest s, Reached (scriptContext name script profile) rest s →
      s.stage.Asks (Retinted (scriptContext name script profile) rest)) ∧
    ∀ f ∈ scriptFlushes name script profile, ∃ i rest s,
      Reached (scriptContext name script profile) (i :: rest) s ∧
        flush? (scriptContext name script profile) s i rest = some f ∧
        f.stage.Flushed (Retinted (scriptContext name script profile) (i :: rest)) := by
  refine ⟨fun rest s hs => asks_reached hs, fun f hf => ?_⟩
  obtain ⟨i, rest, s, hs, hflush⟩ := exists_reached_of_mem_flushes hf
  exact ⟨i, rest, s, hs, hflush, flushed_of_flush? (asks_reached hs) hflush⟩

/-- A foreground and a transition, then a tint, the same foreground again and another transition. -/
def tintedInPlace : List UInt8 :=
  [0x48, 0, 0, 0, 0, 0, 0, 0, 0, 0, 0, 0, 0x66, 0, 0x4a, 0, 0, 0, 0, 0xb9, 5, 0,
   0x48, 0, 0, 0, 0, 0, 0, 0, 0, 0, 0, 0, 0x66, 0, 0x4a, 0, 0, 0, 0]

/-- What its second drawing leaves undrawn was retinted in its place. -/
theorem flushes_of_tintedInPlace :
    ∃ f ∈ scriptFlushes "a" tintedInPlace {},
      (f.stage.foreground? 0).any (·.figure.isDirty) = true ∧
        ∃ i rest s, Reached (scriptContext "a" tintedInPlace {}) (i :: rest) s ∧
          flush? (scriptContext "a" tintedInPlace {}) s i rest = some f ∧
          Retinted (scriptContext "a" tintedInPlace {}) (i :: rest) 0 := by
  have hdirty : ∃ f ∈ scriptFlushes "a" tintedInPlace {},
      (f.stage.foreground? 0).any (·.figure.isDirty) = true := by
    decide +kernel
  obtain ⟨f, hf, hany⟩ := hdirty
  obtain ⟨i, rest, s, hs, hflush, hflushed⟩ :=
    (transpile_flushes "a" tintedInPlace {}).2 f hf
  refine ⟨f, hf, hany, i, rest, s, hs, hflush, ?_⟩
  cases hslot : f.stage.foreground? 0 with
  | none =>
    rw [hslot] at hany
    cases hany
  | some slot =>
    rw [hslot] at hany
    exact (hflushed.foreground 0 slot hslot hany).1

/-- The second transition draws nothing, and the tint is left undrawn. -/
theorem retinted_undrawn :
    (scriptFlushes "a" tintedInPlace {}).map (fun f =>
        (f.stage.foreground? 0).map fun slot =>
          (slot.figure.isDirty, slot.figure.picture?.map (·.tint)))
      = [some (false, some 0), some (true, some 5)] ∧
    (transpile "a" tintedInPlace {}).isComplete = true ∧
    (transpile "a" tintedInPlace {}).document.rows.map (·.statement.text)
      = ["label RIO_A:", "show fg F at reset as fg_i0", "with Pause(0.016)"] := by
  decide +kernel

end Rio
