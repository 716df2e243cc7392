import Mathlib.Data.List.Induction
import Rio.Proofs.Stage.Tracking

/-!
# Timelines

Key frames collect in the pictures that they move, and a drawing plays all that have collected.
This module follows the two on the stage:

> `Picture.move_framesOf`: the key frames of a picture that was at rest are those of its motions, in
> order, and each ends where the motions up to it lead from where the picture stood;
> `Moved.exists_draw`: the drawing after some motions shows each picture that they move once, with
> its key frames as its block, and leaves it at the end of the last of them.

Motions are for places: a background and the foregrounds are numbered, and by a hundred more if
the motion shakes (`Motion.place?`). On the stage each place takes the motions that are for it and
no others (`Moved`).

Drawing the stage draws every place on its own, and the cues of a place stand together
(`cuesFor_draw`). A picture that has nothing to be drawn is at rest (`Rested`): whatever adds a
key frame also makes it dirty.
-/

namespace Rio.Screenplay.Motion

open Renpy (Place)
open Stage (FrameKind)

/-- The place that a motion is for. -/
def place? (m : Motion) : Option Place :=
  if m.target = 0 ∨ m.target = 100 then some .background
  else if 1 ≤ m.target ∧ m.target ≤ 99 then some (.foreground (m.target - 1).toNat)
  else if 101 ≤ m.target then some (.foreground (m.target - 101).toNat)
  else none

/-- What kind of key frame a motion gives. -/
def kind (m : Motion) : FrameKind :=
  if m.target < 100 then .linear else .shake

/-- The motions for a place. -/
def forPlace (place : Place) (motions : List Motion) : List Motion :=
  motions.filter fun m => decide (m.place? = some place)

theorem forPlace_append (place : Place) (motions further : List Motion) :
    forPlace place (motions ++ further) = forPlace place motions ++ forPlace place further :=
  List.filter_append ..

/-- How far motions lead together. -/
def travel : List Motion → Int × Int
  | [] => (0, 0)
  | m :: rest => (m.dx + (travel rest).1, m.dy + (travel rest).2)

/-- Ways add up. -/
theorem travel_append (motions further : List Motion) :
    travel (motions ++ further)
      = ((travel motions).1 + (travel further).1, (travel motions).2 + (travel further).2) := by
  induction motions with
  | nil => simp [travel]
  | cons m motions ih =>
    rw [List.cons_append, travel, ih, travel]
    simp only [Int.add_assoc]

/-- The opacity that motions lead to from another one. -/
def opacity (alpha : Float) (motions : List Motion) : Float :=
  motions.foldl (fun alpha m => alpha + Float.ofInt m.fade / 255.0) alpha

end Rio.Screenplay.Motion

namespace Rio.Renpy

/-- The place in which a statement shows or hides something. -/
def Statement.place? : Statement → Option Place
  | .shot s _ => some s.place
  | .hide t => t.place?
  | _ => none

/-- A place is shown once, with the lines of a block, and is not hidden. -/
def ShowsOnce (place : Place) (shot : Shot) (lines : List AtlLine) (statements : List Statement) :
    Prop :=
  shot.place = place ∧ ∃ front back,
    statements = front ++ .shot shot (!lines.isEmpty) :: lines.map .atl ++ back ∧
      ∀ st ∈ front ++ back, st.place? ≠ some place

end Rio.Renpy

namespace Rio.Stage

open Renpy (AtlLine Place Shot Statement Tag)
open Screenplay (Motion)
open Screenplay.Motion (forPlace travel opacity)

/-! ## Key frames of a picture -/

/-- Key frames that are those of some motions in order. Each ends where the motions up to it lead
from a position and an opacity. -/
structure FramesOf (base : Int × Int) (alpha : Float) (motions : List Motion)
    (frames : List KeyFrame) : Prop where
  count : frames.length = motions.length
  frame : ∀ (k : Nat) (m : Motion), motions[k]? = some m →
    frames[k]? = some
      { kind := m.kind
        dx := m.dx
        dy := m.dy
        ms := m.ms
        fade := m.fade
        x := base.1 + (travel (motions.take (k + 1))).1
        y := base.2 + (travel (motions.take (k + 1))).2
        alpha := opacity alpha (motions.take (k + 1)) }

section Frames

variable {base : Int × Int} {alpha : Float} {motions : List Motion} {frames : List KeyFrame}

theorem FramesOf.nil (base : Int × Int) (alpha : Float) : FramesOf base alpha [] [] :=
  ⟨rfl, fun _ _ h => (by cases h)⟩

/-- One more motion gives one more key frame, which starts where the others end. -/
theorem FramesOf.concat (h : FramesOf base alpha motions frames) (m : Motion) :
    FramesOf base alpha (motions ++ [m])
      (frames ++ [⟨m.kind, m.dx, m.dy, m.ms, m.fade, base.1 + (travel motions).1 + m.dx,
        base.2 + (travel motions).2 + m.dy,
          opacity alpha motions + Float.ofInt m.fade / 255.0⟩]) := by
  refine ⟨by simp [h.count], fun k m' hk => ?_⟩
  by_cases hlt : k < motions.length
  · -- the motions before are those that there were
    rw [List.getElem?_append_left hlt] at hk
    rw [List.getElem?_append_left (h.count ▸ hlt), List.take_append_of_le_length hlt]
    exact h.frame k m' hk
  · obtain rfl : k = motions.length := by
      have hbound := (List.getElem?_eq_some_iff.mp hk).1
      rw [List.length_append, List.length_singleton] at hbound
      omega
    rw [List.getElem?_concat_length] at hk
    obtain rfl := Option.some.inj hk
    have htake : (motions ++ [m]).take (motions.length + 1) = motions ++ [m] :=
      List.take_of_length_le (by simp)
    rw [← h.count, List.getElem?_concat_length, h.count, htake, Screenplay.Motion.travel_append]
    simp [travel, opacity, Int.add_assoc]

end Frames

/-- A picture with the key frames of some motions. -/
def Picture.move (p : Picture) (motions : List Motion) : Picture :=
  motions.foldl (fun p m => p.addFrame m.kind m.dx m.dy m.ms m.fade) p

section Picture

variable {p : Picture}

/-- Motions are taken one after the other. -/
theorem Picture.move_append (p : Picture) (motions further : List Motion) :
    p.move (motions ++ further) = (p.move motions).move further :=
  List.foldl_append

/-- Motions change where a picture leads to and how it is seen there. -/
theorem Picture.move_eq (p : Picture) (motions : List Motion) :
    p.move motions =
      { p with
        pos := (p.move motions).pos
        alpha := (p.move motions).alpha
        frames := (p.move motions).frames
        dirty := p.dirty || !motions.isEmpty } := by
  induction motions generalizing p with
  | nil => simp [move]
  | cons m motions ih =>
    have hcons : p.move (m :: motions)
        = (p.addFrame m.kind m.dx m.dy m.ms m.fade).move motions := rfl
    rw [hcons]
    refine (ih _).trans ?_
    simp [addFrame]

/-- A picture that has nothing to be drawn stands where it leads to. -/
def Picture.Rested (p : Picture) : Prop :=
  p.dirty = false → p.frames = [] ∧ p.pos = p.base

/-- The key frames of a picture that was at rest are those of its motions. -/
theorem Picture.move_framesOf (hframes : p.frames = []) (hpos : p.pos = p.base)
    (motions : List Motion) :
    FramesOf p.base p.alpha motions (p.move motions).frames ∧
      (p.move motions).pos = (p.base.1 + (travel motions).1, p.base.2 + (travel motions).2) ∧
      (p.move motions).alpha = opacity p.alpha motions := by
  -- a key frame is added at the end, so the induction goes from the end
  induction motions using List.reverseRecOn with
  | nil =>
    show FramesOf p.base p.alpha [] p.frames ∧ p.pos = (p.base.1 + 0, p.base.2 + 0) ∧
        p.alpha = p.alpha
    rw [hframes, hpos, Int.add_zero, Int.add_zero]
    exact ⟨.nil _ _, rfl, rfl⟩
  | append_singleton motions m ih =>
    obtain ⟨hof, hstop, halpha⟩ := ih
    have hmove : p.move (motions ++ [m])
        = (p.move motions).addFrame m.kind m.dx m.dy m.ms m.fade := p.move_append motions [m]
    rw [hmove]
    refine ⟨?_, ?_, ?_⟩
    · have hframe := hof.concat m
      rw [Picture.addFrame, hstop, halpha]
      exact hframe
    · rw [Picture.addFrame, hstop, Screenplay.Motion.travel_append]
      simp [travel, Int.add_assoc]
    · rw [Picture.addFrame, halpha]
      simp [opacity]

/-- The block of a picture that was at rest: what it says of the picture as it stands, and then
the key frames. -/
theorem Picture.atl_move (hframes : p.frames = []) (motions : List Motion) (useMatrixcolor : Bool) :
    (p.move motions).atl useMatrixcolor
      = p.atl useMatrixcolor ++ (p.move motions).frames.flatMap p.frameLines := by
  -- the lines before the key frames do not look at what motions change
  have hlines : ∀ q : Picture, q.origin = p.origin → q.base = p.base → q.zoom = p.zoom →
      q.pan = p.pan →
      q.tint = p.tint → q.tintChanged = p.tintChanged →
      q.atl useMatrixcolor = p.atl useMatrixcolor ++ q.frames.flatMap p.frameLines := by
    intro q horigin hbase hzoom hpan htint hchanged
    have hof : q.frameLines = p.frameLines := by
      unfold frameLines xOffset yOffset
      rw [horigin]
    unfold atl positionLines viewportLines tintLines xOffset yOffset
    rw [hof, horigin, hbase, hzoom, hpan, htint, hchanged, hframes]
    simp
  have heq := p.move_eq motions
  generalize p.move motions = q at heq
  apply hlines q <;> rw [heq]

end Picture

/-! ## Cues of one place -/

/-- The cues of a place stand together among others. -/
def CuesFor (place : Place) (cues own : List Cue) : Prop :=
  ∃ front back, cues = front ++ own ++ back ∧ ∀ cue ∈ front ++ back, cue.place? ≠ some place

section Cues

variable {place : Place} {cues own : List Cue} {drawing : Drawing}

/-- Cues of other places may come first. -/
theorem CuesFor.append_left {front : List Cue} (hfront : ∀ cue ∈ front, cue.place? ≠ some place)
    (h : CuesFor place cues own) : CuesFor place (front ++ cues) own := by
  obtain ⟨front', back, rfl, hothers⟩ := h
  refine ⟨front ++ front', back, by simp, fun cue hcue => ?_⟩
  rw [List.append_assoc] at hcue
  exact (List.mem_append.mp hcue).elim (hfront cue) (hothers cue)

/-- They may also come behind. -/
theorem CuesFor.append_right {back : List Cue} (hback : ∀ cue ∈ back, cue.place? ≠ some place)
    (h : CuesFor place cues own) : CuesFor place (cues ++ back) own := by
  obtain ⟨front, back', rfl, hothers⟩ := h
  refine ⟨front, back' ++ back, by simp, fun cue hcue => ?_⟩
  rw [← List.append_assoc] at hcue
  exact (List.mem_append.mp hcue).elim (hothers cue) (hback cue)

theorem CuesFor.refl (place : Place) (own : List Cue) : CuesFor place own own :=
  ⟨[], [], by simp, fun _ h => (by cases h)⟩

/-- Every cue of a place is among its own. -/
theorem CuesFor.mem (h : CuesFor place cues own) {cue : Cue} (hcue : cue ∈ cues)
    (hplace : cue.place? = some place) : cue ∈ own := by
  obtain ⟨front, back, rfl, hothers⟩ := h
  rcases List.mem_append.mp hcue with hcue | hcue
  · rcases List.mem_append.mp hcue with hcue | hcue
    · exact absurd hplace (hothers cue (List.mem_append_left _ hcue))
    · exact hcue
  · exact absurd hplace (hothers cue (List.mem_append_right _ hcue))

/-- A cue belongs to the place of what it shows. -/
theorem Cue.place?_of_mem_statements {cue : Cue} {st : Statement} (hst : st ∈ cue.statements)
    (hplace : st.place? = some place) : cue.place? = some place := by
  cases cue with
  | draw shot lines =>
    rcases List.mem_cons.mp hst with rfl | hst
    · exact hplace
    · obtain ⟨line, -, rfl⟩ := List.mem_map.mp hst
      cases hplace
  | hide tag =>
    rw [List.mem_singleton.mp hst] at hplace
    exact hplace

/-- A place with one cue is shown once. -/
theorem CuesFor.showsOnce {shot : Shot} {lines : List AtlLine}
    (h : CuesFor place cues [.draw shot lines]) (hshot : shot.place = place) :
    Renpy.ShowsOnce place shot lines (cues.flatMap Cue.statements) := by
  obtain ⟨front, back, rfl, hothers⟩ := h
  refine ⟨hshot, front.flatMap Cue.statements, back.flatMap Cue.statements, ?_,
    fun st hst hplace => ?_⟩
  · simp [Cue.statements]
  · rw [← List.flatMap_append] at hst
    obtain ⟨cue, hcue, hst⟩ := List.mem_flatMap.mp hst
    exact hothers cue hcue (Cue.place?_of_mem_statements hst hplace)

/-- The foregrounds come one after the other. -/
theorem cuesFor_drawForegroundsFrom (drawing : Drawing) (cleared : Bool) (index : Nat)
    (slots : List (Option Slot)) (k : Nat) :
    CuesFor (.foreground (index + k)) (drawForegroundsFrom drawing cleared index slots).2.1
      (drawForeground drawing cleared (index + k) slots[k]?.join).2.1 := by
  induction slots generalizing index k with
  | nil => exact .refl _ _
  | cons slot rest ih =>
    show CuesFor _ ((drawForeground drawing cleared index slot).2.1 ++
      (drawForegroundsFrom drawing cleared (index + 1) rest).2.1) _
    cases k with
    | zero =>
      refine (CuesFor.refl _ _).append_right fun cue hcue => ?_
      apply place?_of_mem_drawForegroundsFrom hcue
      intro j hj heq
      have := Place.foreground.inj heq
      omega
    | succ k =>
      have hindex : index + (k + 1) = index + 1 + k := by omega
      rw [hindex]
      refine (ih (index + 1) k).append_left fun cue hcue => ?_
      apply place?_of_mem_drawSlot rfl (shoots_foreground drawing index) hcue
      intro heq
      have := Place.foreground.inj heq
      omega

theorem place?_of_mem_drawBackground {g : Stage} {cue : Cue}
    (hcue : cue ∈ (drawBackground drawing g).2.1) (hplace : place ≠ .background) :
    cue.place? ≠ some place := by
  rw [drawBackground_eq] at hcue
  dsimp only at hcue
  split at hcue
  · obtain ⟨p, -, rfl⟩ := List.mem_map.mp hcue
    exact fun heq => hplace (Option.some.inj heq).symm
  · cases hcue

/-- Drawing the stage draws every place on its own. -/
theorem cuesFor_draw (drawing : Drawing) (g : Stage) (place : Place) :
    CuesFor place (g.draw drawing).2.1 (drawnAt drawing g place).2.1 := by
  -- the background comes first, then the foregrounds, then the object
  rw [(drawn drawing g).cues]
  cases place with
  | background =>
    rw [drawnAt, drawPlace_background]
    refine ((CuesFor.refl _ _).append_right fun cue hcue => ?_).append_right fun cue hcue => ?_
    · exact place?_of_mem_foregroundCues hcue fun k heq => (by cases heq)
    · exact place?_of_mem_drawnObject hcue fun heq => (by cases heq)
  | foreground k =>
    have hforegrounds : CuesFor (.foreground k) (foregroundCues drawing g).1
        (drawnAt drawing g (.foreground k)).2.1 := by
      unfold foregroundCues drawnAt drawPlace
      split
      · have h := cuesFor_drawForegroundsFrom drawing g.clears 0 g.foregrounds k
        rw [Nat.zero_add] at h
        exact h
      · exact .refl _ _
    refine (hforegrounds.append_left fun cue hcue => ?_).append_right fun cue hcue => ?_
    · exact place?_of_mem_drawBackground hcue fun heq => (by cases heq)
    · exact place?_of_mem_drawnObject hcue fun heq => (by cases heq)
  | object =>
    refine CuesFor.append_left (fun cue hcue => ?_) (.refl _ _)
    rcases List.mem_append.mp hcue with hcue | hcue
    · exact place?_of_mem_drawBackground hcue fun heq => (by cases heq)
    · exact place?_of_mem_foregroundCues hcue fun k heq => (by cases heq)

/-- A picture that changed is shown where its group is drawn. -/
theorem drawPlace_dirty {cleared : Bool} {tag : Tag} {shot : Picture → Shot} {p : Picture}
    (hdirty : p.dirty = true) :
    drawPlace drawing cleared true tag shot (some ⟨.picture p, false⟩)
      = (some ⟨.picture (settle p), false⟩, [.draw (shot p) (p.atl drawing.useMatrixcolor)],
          true) := by
  rw [drawPlace, if_pos (Bool.or_true _), drawSlot_picture, if_neg (by simp),
    if_pos (by rw [hdirty, Bool.or_true])]

/-- A picture that has changed is shown by one shot, with its transforms. -/
theorem drawnAt_dirty (drawing : Drawing) {g : Stage} {p : Picture}
    (hslot : g.slot? place = some ⟨.picture p, false⟩) (hdirty : p.dirty = true)
    (hredraw : g.redraws place = true) :
    ∃ shot : Shot, shot.place = place ∧ shot.image = Unicode.toUpper p.name ∧
      drawnAt drawing g place
        = (some ⟨.picture (settle p), false⟩, [.draw shot (p.atl drawing.useMatrixcolor)],
            true) := by
  cases place with
  | background =>
    refine ⟨.background (Unicode.toUpper p.name), rfl, rfl, ?_⟩
    rw [drawnAt, hslot, (show g.backgroundRedraw = true from hredraw)]
    exact drawPlace_dirty hdirty
  | foreground k =>
    refine ⟨foregroundShot drawing k p, rfl, rfl, ?_⟩
    rw [drawnAt, hslot, (show g.foregroundRedraw = true from hredraw)]
    exact drawPlace_dirty hdirty
  | object =>
    refine ⟨objectShot drawing p, rfl, rfl, ?_⟩
    rw [drawnAt, hslot, (show g.objectRedraw = true from hredraw)]
    exact drawPlace_dirty hdirty

end Cues

/-! ## Pictures at rest -/

/-- Every picture that has nothing to be drawn is at rest. -/
def Rested (g : Stage) : Prop :=
  ∀ place p, pictureIn (g.slot? place) = some p → p.Rested

section Rested

variable {g g' : Stage}

/-- A change leaves a picture dirty or as it was. -/
theorem Picture.Change.rested {p p' : Picture} {redraw : Bool} (h : p.Change p' redraw)
    (hp : p.Rested) :
    p'.Rested := by
  cases h with
  | replace name x y =>
    unfold Picture.replace
    split
    · exact fun _ => ⟨rfl, rfl⟩
    · exact hp
  | viewport zoom xpan ypan =>
    unfold Picture.setViewport
    split
    · exact hp
    · exact fun hclean => (by cases hclean)
  | tint tint =>
    unfold Picture.setTint
    split
    · exact hp
    · exact fun hclean => (by cases hclean)
  | frame kind dx dy ms fade => exact fun hclean => (by cases hclean)

theorem rested_empty : Rested {} := by
  intro place p hp
  cases place <;> cases hp

/-- So does a change of the stage with each of its pictures. -/
theorem Rested.change (h : g.Rested) (hchange : g.Change g') : g'.Rested := by
  intro place p hp
  have halt := hchange.altered place
  generalize g'.slot? place = slot' at halt hp
  generalize g'.redraws place = redraw' at halt
  cases halt with
  | same _ => exact h place p hp
  | fresh name x y =>
    obtain rfl := Option.some.inj hp
    exact fun hclean => (by cases hclean)
  | @change taken taken' asks htaken hslotChange =>
    cases hslotChange with
    | same => exact h place p (htaken ▸ hp)
    | picture hpicture _ =>
      obtain rfl := Option.some.inj hp
      exact hpicture.rested (h place _ (by rw [htaken]; rfl))
    | clear => exact h place p (htaken ▸ hp)

/-- What is in a place after a drawing was there before, and has been drawn or left alone. -/
theorem pictureIn_drawPlace {drawing : Drawing} {cleared redraw : Bool} {tag : Tag}
    {shot : Picture → Shot} {slot : Option Slot} {p : Picture}
    (hp : pictureIn (drawPlace drawing cleared redraw tag shot slot).1 = some p) :
    pictureIn slot = some p ∨ ∃ q, pictureIn slot = some q ∧ p = settle q := by
  unfold drawPlace at hp
  split at hp
  · cases slot with
    | none => cases hp
    | some taken =>
      obtain ⟨figure, pending⟩ := taken
      cases figure with
      | picture q =>
        rw [drawSlot_picture] at hp
        split at hp
        · cases hp
        · split at hp
          · exact .inr ⟨q, rfl, (Option.some.inj hp).symm⟩
          · exact .inl hp
      | standIn reference => cases pending <;> cases hp
  · exact .inl hp

/-- What is drawn comes to rest: its frames are played and it stands where they led. -/
theorem Rested.draw (h : g.Rested) (drawing : Drawing) : (g.draw drawing).1.Rested := by
  intro place p hp
  rw [slot?_draw] at hp
  have hcases : pictureIn (g.slot? place) = some p ∨ ∃ q, pictureIn (g.slot? place) = some q ∧
      p = settle q := by
    cases place with
    | background | foreground | object => exact pictureIn_drawPlace hp
  rcases hcases with hsame | ⟨q, -, rfl⟩
  · exact h place p hsame
  · exact fun _ => ⟨rfl, rfl⟩

/-- Something drawn elsewhere is no picture. -/
theorem Rested.standIn (h : g.Rested) (index : Nat) (reference : String) :
    (g.setForeground index ⟨.standIn reference, false⟩).Rested := by
  intro place p hp
  cases place with
  | foreground k =>
    rw [slot?, foreground?_setForeground] at hp
    split at hp
    · cases hp
    · exact h (.foreground k) p hp
  | background => exact h .background p hp
  | object => exact h .object p hp

end Rested

/-! ## Nothing to draw -/

/-- Whether a place has nothing to be drawn. -/
def Slot.isClean (slot : Slot) : Bool :=
  !slot.figure.isDirty && !slot.pendingRemoval

/-- Whether no image has changed, no place is to be cleared and no group asks to be drawn. -/
def isClean (g : Stage) : Bool :=
  g.background.all (!·.dirty) && g.foregrounds.all (·.all Slot.isClean) &&
    g.object.all Slot.isClean &&
    !g.backgroundRedraw && !g.foregroundRedraw && !g.objectRedraw

/-- On a clean stage every place is clean. -/
theorem isClean_slot? {g : Stage} (h : g.isClean = true) {place : Place} {slot : Slot}
    (hslot : g.slot? place = some slot) : slot.isClean = true := by
  simp only [isClean, Bool.and_eq_true] at h
  obtain ⟨⟨⟨⟨⟨hbackground, hforegrounds⟩, hobject⟩, -⟩, -⟩, -⟩ := h
  cases place with
  | background =>
    obtain ⟨p, hp, rfl⟩ := Option.map_eq_some_iff.mp hslot
    rw [hp] at hbackground
    show (!p.dirty && !false) = true
    rw [Bool.and_eq_true]
    exact ⟨hbackground, rfl⟩
  | foreground k =>
    obtain ⟨o, ho, hjoin⟩ : ∃ o, g.foregrounds[k]? = some o ∧ o = some slot := by
      rw [slot?, foreground?, Option.join_eq_some_iff] at hslot
      exact ⟨_, hslot, rfl⟩
    have hall := List.all_eq_true.mp hforegrounds o (List.mem_of_getElem? ho)
    rw [hjoin] at hall
    exact hall
  | object =>
    rw [(show g.object = some slot from hslot)] at hobject
    exact hobject

/-! ## Motions on the stage -/

/-- A place has a picture only if it is taken by one. -/
theorem exists_of_pictureIn {slot : Option Slot} {p : Picture} (h : pictureIn slot = some p) :
    ∃ pending, slot = some ⟨.picture p, pending⟩ := by
  obtain ⟨⟨figure, pending⟩, rfl, hfigure⟩ := Option.bind_eq_some_iff.mp h
  cases figure with
  | picture q =>
    obtain rfl := Option.some.inj hfigure
    exact ⟨pending, rfl⟩
  | standIn reference => cases hfigure

theorem background_of_pictureIn {g : Stage} {p : Picture}
    (h : pictureIn (g.slot? .background) = some p) :
    g.background = some p := by
  obtain ⟨pending, hslot⟩ := exists_of_pictureIn h
  obtain ⟨q, hq, heq⟩ := Option.map_eq_some_iff.mp hslot
  cases heq
  exact hq

/-- What is in a place with the key frames of some motions. -/
def Slot.move (motions : List Motion) (slot : Slot) : Slot :=
  { slot with figure := slot.figure.map (·.move motions) }

theorem Slot.move_nil (slot : Slot) : slot.move [] = slot := by
  obtain ⟨figure, pending⟩ := slot
  cases figure <;> rfl

theorem Slot.move_append (motions further : List Motion) (slot : Slot) :
    slot.move (motions ++ further) = (slot.move motions).move further := by
  obtain ⟨figure, pending⟩ := slot
  cases figure with
  | picture p =>
    exact congrArg (fun q => (⟨.picture q, pending⟩ : Slot)) (p.move_append motions further)
  | standIn reference => rfl

/-- Every motion is for a place that holds a picture. -/
def HasTargets (g : Stage) (motions : List Motion) : Prop :=
  ∀ m ∈ motions, ∃ place p, m.place? = some place ∧ pictureIn (g.slot? place) = some p

/-- Each place has taken the motions that are for it, and asks to be drawn if there are any. -/
structure Moved (motions : List Motion) (g g' : Stage) : Prop where
  slot : ∀ place, g'.slot? place = (g.slot? place).map (Slot.move (forPlace place motions))
  redraws : ∀ place, g.redraws place = true ∨ forPlace place motions ≠ [] → g'.redraws place = true

namespace Moved

variable {g g' g'' : Stage} {motions further : List Motion}

/-- That a segment goes on is not seen in any place. -/
theorem inSegment (g : Stage) (inSegment : Bool) : Moved [] g { g with inSegment } where
  slot := fun place => by
    show _ = (g.slot? place).map (Slot.move [])
    rw [funext Slot.move_nil, Option.map_id']
    cases place <;> rfl
  redraws := fun place h => by
    have hredraws : g.redraws place = true := h.elim id fun hne => absurd rfl hne
    cases place <;> exact hredraws

/-- Each place takes the motions of the first part, then those of the second. -/
theorem trans (h : Moved motions g g') (h' : Moved further g' g'') :
    Moved (motions ++ further) g g'' where
  slot := fun place => by
    rw [h'.slot, h.slot, Option.map_map, Screenplay.Motion.forPlace_append]
    exact congrArg (fun f => (g.slot? place).map f)
      (funext fun slot => (Slot.move_append _ _ slot).symm)
  redraws := fun place hasks => by
    apply h'.redraws
    rw [Screenplay.Motion.forPlace_append] at hasks
    rcases hasks with hredraws | hne
    · exact .inl (h.redraws place (.inl hredraws))
    · by_cases hnil : forPlace place motions = []
      · rw [hnil] at hne
        exact .inr hne
      · exact .inl (h.redraws place (.inr hnil))

/-- The picture in a place is moved by the motions for it. -/
theorem pictureIn (h : Moved motions g g') (place : Place) :
    Stage.pictureIn (g'.slot? place)
      = (Stage.pictureIn (g.slot? place)).map (·.move (forPlace place motions)) := by
  rw [h.slot]
  cases g.slot? place with
  | none => rfl
  | some slot =>
    obtain ⟨figure, pending⟩ := slot
    cases figure <;> rfl

/-- What was there before motions is there after them. -/
theorem hasTargets (h : Moved motions g g') (htargets : g.HasTargets further) :
    g'.HasTargets further := by
  intro m hm
  obtain ⟨place, p, hplace, hp⟩ := htargets m hm
  refine ⟨place, p.move (forPlace place motions), hplace, ?_⟩
  rw [h.pictureIn, hp]
  rfl

/-- One motion moves what is in its place. -/
theorem single {m : Motion} {target : Place} (hm : m.place? = some target)
    (hown : g'.slot? target = (g.slot? target).map (Slot.move [m]))
    (hothers : ∀ place, place ≠ target → g'.slot? place = g.slot? place)
    (hredraw : g'.redraws target = true)
    (hkeep : ∀ place, g.redraws place = true → g'.redraws place = true) :
    Moved [m] g g' := by
  have hself : forPlace target [m] = [m] := by simp [forPlace, hm]
  have hother : ∀ place, place ≠ target → forPlace place [m] = [] := by
    intro place hplace
    simp [forPlace, hm, Ne.symm hplace]
  refine ⟨fun place => ?_, fun place hasks => ?_⟩
  · by_cases hplace : place = target
    · rw [hplace, hself, hown]
    · rw [hother place hplace, funext Slot.move_nil, Option.map_id', hothers place hplace]
  · by_cases hplace : place = target
    · rw [hplace, hredraw]
    · exact hkeep place (hasks.elim id fun hne => absurd (hother place hplace) hne)

/-- A motion of the background goes to no other place. -/
theorem background {p : Picture} (hp : g.background = some p) {m : Motion}
    (hm : m.place? = some .background) :
    Moved [m] g
      { g with
        background := some (p.addFrame m.kind m.dx m.dy m.ms m.fade)
        backgroundRedraw := true } := by
  refine single hm ?_ (fun place hplace => ?_) rfl fun place hredraw => ?_
  · rw [slot?, slot?, hp]
    rfl
  · cases place with
    | background => exact absurd rfl hplace
    | foreground | object => rfl
  · cases place with
    | background => rfl
    | foreground | object => exact hredraw

/-- A motion of a foreground goes to the picture with its index only. -/
theorem foreground {index : Nat} {p : Picture} {pending : Bool}
    (hp : g.foreground? index = some ⟨.picture p, pending⟩) {m : Motion}
    (hm : m.place? = some (.foreground index)) :
    Moved [m] g
      { g.setForeground index ⟨.picture (p.addFrame m.kind m.dx m.dy m.ms m.fade), pending⟩ with
        foregroundRedraw := true } := by
  refine single hm ?_ (fun place hplace => ?_) rfl fun place hredraw => ?_
  · show (g.setForeground index _).foreground? index = (g.foreground? index).map _
    rw [foreground?_setForeground, if_pos rfl, hp]
    rfl
  · cases place with
    | foreground k =>
      show (g.setForeground index _).foreground? k = g.foreground? k
      rw [foreground?_setForeground, if_neg fun heq => hplace (congrArg Place.foreground heq)]
    | background | object => rfl
  · cases place with
    | foreground k => rfl
    | background | object => exact hredraw

/-! ### The drawing after motions -/

section

variable (h : Moved motions g g') (hclean : g.isClean = true)

include h hclean

/-- A place that no motion is for has nothing to be drawn. -/
theorem isClean_of_forPlace_eq_nil {place : Place} (hnil : forPlace place motions = [])
    {slot : Slot} (hslot : g'.slot? place = some slot) : slot.isClean = true := by
  rw [h.slot, hnil, funext Slot.move_nil, Option.map_id'] at hslot
  exact isClean_slot? hclean hslot

/-- Without a motion for the background the screen is not cleared. -/
theorem clears_eq_false (hnil : forPlace .background motions = []) : g'.clears = false := by
  unfold clears
  cases hp : g'.background with
  | none => exact Bool.and_false _
  | some p =>
    have hslot : g'.slot? .background = some ⟨.picture p, false⟩ := by
      rw [slot?, hp]
      rfl
    have hdirty : p.dirty = false := by
      simpa [Slot.isClean, Figure.isDirty] using h.isClean_of_forPlace_eq_nil hclean hnil hslot
    rw [Option.any_some, hdirty, Bool.and_false]

/-- Only what a motion is for is drawn, unless the background moves and everything is shown
again. -/
theorem forPlace_ne_nil_of_mem_draw {drawing : Drawing} {cue : Cue}
    (hcue : cue ∈ (g'.draw drawing).2.1) {place : Place} (hplace : cue.place? = some place) :
    forPlace place motions ≠ [] ∨ forPlace .background motions ≠ [] := by
  by_cases hbackground : forPlace .background motions = []
  · refine .inl fun hnil => ?_
    have hclears := h.clears_eq_false hclean hbackground
    have hown := (cuesFor_draw drawing g' place).mem hcue hplace
    -- whether or not its group is looked at, a place with nothing to be drawn has no cue
    have hempty : ∀ (redraw : Bool) (tag : Tag) (shot : Picture → Shot),
        (drawPlace drawing false redraw tag shot (g'.slot? place)).2.1 = [] := by
      intro redraw tag shot
      unfold drawPlace
      split
      · cases hslot : g'.slot? place with
        | none => rfl
        | some slot =>
          have hkept := h.isClean_of_forPlace_eq_nil hclean hnil hslot
          obtain ⟨figure, pending⟩ := slot
          simp only [Slot.isClean, Bool.and_eq_true, Bool.not_eq_true'] at hkept
          obtain ⟨hdirty, rfl⟩ := hkept
          cases figure with
          | picture p =>
            rw [drawSlot_picture, if_neg (by simp), if_neg (by simpa [Figure.isDirty] using hdirty)]
          | standIn reference => rfl
      · rfl
    have hnone : (drawnAt drawing g' place).2.1 = [] := by
      cases place with
      | background => exact hempty _ _ _
      | foreground k =>
        rw [drawnAt, hclears]
        exact hempty _ _ _
      | object =>
        rw [drawnAt, hclears]
        exact hempty _ _ _
    rw [hnone] at hown
    cases hown
  · exact .inr hbackground

/-- The drawing after some motions shows a picture that they move once, with their key frames, and
leaves it where they lead to. -/
theorem exists_draw (hrested : g.Rested) {place : Place} {p : Picture}
    (hp : Stage.pictureIn (g.slot? place) = some p) (hmoved : forPlace place motions ≠ [])
    (drawing : Drawing) :
    ∃ frames shot, FramesOf p.base p.alpha (forPlace place motions) frames ∧
      shot.place = place ∧ shot.image = Unicode.toUpper p.name ∧
      CuesFor place (g'.draw drawing).2.1
        [.draw shot (p.atl drawing.useMatrixcolor ++ frames.flatMap p.frameLines)] ∧
      ∃ p', Stage.pictureIn ((g'.draw drawing).1.slot? place) = some p' ∧ p'.frames = [] ∧
        p'.base = (p.base.1 + (travel (forPlace place motions)).1,
          p.base.2 + (travel (forPlace place motions)).2) := by
  obtain ⟨pending, hslot⟩ := exists_of_pictureIn hp
  have hkept := isClean_slot? hclean hslot
  simp only [Slot.isClean, Figure.isDirty, Bool.and_eq_true, Bool.not_eq_true'] at hkept
  obtain ⟨hdirty, rfl⟩ := hkept
  -- the picture is at rest, so its frames are those of the motions alone
  obtain ⟨hframes, hpos⟩ := hrested place p hp hdirty
  obtain ⟨hof, hstop, -⟩ := Picture.move_framesOf hframes hpos (forPlace place motions)
  have hslot' : g'.slot? place = some ⟨.picture (p.move (forPlace place motions)), false⟩ := by
    rw [h.slot, hslot]
    rfl
  have hname : (p.move (forPlace place motions)).name = p.name := by rw [Picture.move_eq]
  have hdirty' : (p.move (forPlace place motions)).dirty = true := by
    rw [Picture.move_eq]
    simp [hmoved]
  obtain ⟨shot, hplace, himage, hdrawn⟩ :=
    drawnAt_dirty drawing hslot' hdirty' (h.redraws place (.inr hmoved))
  refine ⟨_, shot, hof, hplace, hname ▸ himage, ?_, settle (p.move (forPlace place motions)),
    ?_, rfl, hstop⟩
  · have hcues := cuesFor_draw drawing g' place
    rw [hdrawn, Picture.atl_move hframes] at hcues
    exact hcues
  · rw [slot?_draw, hdrawn]
    rfl

end

end Moved

end Rio.Stage
