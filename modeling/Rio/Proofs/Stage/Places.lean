import Rio.Screenplay.Scenery

/-!
# Places, one by one

A stage keeps its foregrounds in a list that grows as places are taken, and draws them in one
pass. Seen through `foreground?` there are infinitely many places that are independent of each
other: putting something into one leaves the others alone (`foreground?_setForeground`), and
drawing the stage draws each place on its own (`drawn`).
-/

namespace Rio.Stage

variable {g : Stage} {drawing : Drawing}

/-- A picture is put into one place only. -/
@[simp] theorem foreground?_setForeground (g : Stage) (index : Nat) (slot : Slot) (k : Nat) :
    (g.setForeground index slot).foreground? k
      = if k = index then some slot else g.foreground? k := by
  unfold setForeground foreground?
  dsimp only
  rw [List.getElem?_set]
  by_cases hk : k = index
  · subst hk
    have hlt : k < (g.foregrounds ++
        List.replicate (k + 1 - g.foregrounds.length) none).length := by
      rw [List.length_append, List.length_replicate]
      omega
    rw [if_pos rfl, if_pos hlt, if_pos rfl]
    rfl
  · rw [if_neg (Ne.symm hk), if_neg hk, List.getElem?_append]
    split
    · rfl
    · -- places that were added are empty, and so are those that are not there
      next hge =>
      rw [List.getElem?_replicate, List.getElem?_eq_none (by omega)]
      split <;> rfl

/-! ## Drawing -/

/-- Whether drawing the stage brings in a new background, which clears the screen. -/
def clears (g : Stage) : Bool :=
  g.backgroundRedraw && g.background.any (·.dirty)

/-- The background is drawn if its group asks and it has changed; the screen is cleared then. -/
theorem drawBackground_eq (g : Stage) (drawing : Drawing) :
    drawBackground drawing g =
      ({ g with
          background := if g.clears then g.background.map settle else g.background
          backgroundRedraw := false },
        if g.clears then
          g.background.toList.map fun p =>
            .draw (.background (Unicode.toUpper p.name)) (p.atl drawing.useMatrixcolor)
        else [],
        g.clears) := by
  unfold drawBackground clears
  cases hredraw : g.backgroundRedraw with
  | false => simp
  | true =>
    cases hbackground : g.background with
    | none => simp
    | some p => cases hdirty : p.dirty <;> simp [hdirty]

/-- A place that holds a picture is cleared, shown again or left alone. -/
theorem drawSlot_picture (drawing : Drawing) (cleared : Bool) (tag : Renpy.Tag)
    (shot : Picture → Renpy.Shot) (p : Picture) (pending : Bool) :
    drawSlot drawing cleared tag shot (some ⟨.picture p, pending⟩) =
      if pending then (none, if cleared then [] else [.hide tag], true)
      else if cleared || p.dirty then
        (some ⟨.picture (settle p), pending⟩, [.draw (shot p) (p.atl drawing.useMatrixcolor)], true)
      else (some ⟨.picture p, pending⟩, [], false) :=
  rfl

/-- The places from one on are drawn each on its own. -/
theorem getElem?_drawForegroundsFrom (drawing : Drawing) (cleared : Bool) (index : Nat)
    (slots : List (Option Slot)) (k : Nat) :
    (drawForegroundsFrom drawing cleared index slots).1[k]?
      = slots[k]?.map fun slot => (drawForeground drawing cleared (index + k) slot).1 := by
  induction slots generalizing index k with
  | nil => simp [drawForegroundsFrom]
  | cons slot rest ih =>
    unfold drawForegroundsFrom
    cases k with
    | zero => simp
    | succ k =>
      simp only [List.getElem?_cons_succ]
      rw [ih, Nat.add_right_comm, Nat.add_assoc]

/-- The cues of the foregrounds, and whether one of them changed. -/
def foregroundCues (drawing : Drawing) (g : Stage) : List Cue × Bool :=
  if g.clears || g.foregroundRedraw then
    (drawForegroundsFrom drawing g.clears 0 g.foregrounds).2
  else ([], false)

/-- The shot of the object. -/
def objectShot (drawing : Drawing) (p : Picture) : Renpy.Shot :=
  .object (Unicode.toUpper p.name) drawing.accurateZorder

/-- The object after the stage is drawn, its cues, and whether it changed. -/
def drawnObject (drawing : Drawing) (g : Stage) : Option Slot × List Cue × Bool :=
  if g.clears || g.objectRedraw then drawSlot drawing g.clears .object (objectShot drawing) g.object
  else (g.object, [], false)

/-- What drawing a stage comes to. -/
structure Drawn (drawing : Drawing) (g g' : Stage) (cues : List Cue) (changed : Bool) : Prop where
  background : g'.background = if g.clears then g.background.map settle else g.background
  backgroundRedraw : g'.backgroundRedraw = false
  foreground : ∀ k, g'.foreground? k =
    if g.clears || g.foregroundRedraw then
      (drawForeground drawing g.clears k (g.foreground? k)).1
    else g.foreground? k
  foregroundRedraw : g'.foregroundRedraw = false
  object : g'.object = (drawnObject drawing g).1
  objectRedraw : g'.objectRedraw = false
  mask : g'.mask = g.mask
  cues : cues = (drawBackground drawing g).2.1 ++ (foregroundCues drawing g).1 ++
    (drawnObject drawing g).2.1
  changed : changed = (g.clears || (foregroundCues drawing g).2 || (drawnObject drawing g).2.2)

/-- Places that are not there are drawn as empty ones are. -/
theorem join_map_drawForeground (drawing : Drawing) (cleared : Bool) (k : Nat)
    (o : Option (Option Slot)) :
    (o.map fun slot => (drawForeground drawing cleared k slot).1).join
      = (drawForeground drawing cleared k o.join).1 := by
  cases o with
  | none => rfl
  | some slot => rfl

/-- The foregrounds after they are drawn, their flag and their cues. -/
theorem drawForegrounds_eq (drawing : Drawing) (cleared : Bool) (g : Stage) :
    ∃ foregrounds, drawForegrounds drawing cleared g =
        ({ g with foregrounds, foregroundRedraw := false },
          if cleared || g.foregroundRedraw then
            (drawForegroundsFrom drawing cleared 0 g.foregrounds).2
          else ([], false)) ∧
      ∀ k, foregrounds[k]?.join =
        if cleared || g.foregroundRedraw then
          (drawForeground drawing cleared k (g.foreground? k)).1
        else g.foreground? k := by
  unfold drawForegrounds
  by_cases hdue : (cleared || g.foregroundRedraw) = true
  · refine ⟨(drawForegroundsFrom drawing cleared 0 g.foregrounds).1, by simp [hdue], fun k => ?_⟩
    rw [if_pos hdue, getElem?_drawForegroundsFrom, join_map_drawForeground, Nat.zero_add,
      foreground?]
  · -- a group that is not due has not changed
    have hsame : g.foregroundRedraw = false := by
      simp only [Bool.or_eq_true, not_or, Bool.not_eq_true] at hdue
      exact hdue.2
    refine ⟨g.foregrounds, ?_, fun k => ?_⟩
    · rw [if_neg hdue, if_neg hdue, ← hsame]
    · rw [if_neg hdue, foreground?]

/-- The object is drawn if its group asks, or if the screen was cleared. -/
theorem drawObject_eq (drawing : Drawing) (cleared : Bool) (g : Stage) :
    drawObject drawing cleared g =
      let object := if cleared || g.objectRedraw then
          drawSlot drawing cleared .object (objectShot drawing) g.object
        else (g.object, [], false)
      ({ g with object := object.1, objectRedraw := false }, object.2) := by
  unfold drawObject
  by_cases hdue : (cleared || g.objectRedraw) = true
  · rw [if_pos hdue, if_pos hdue]
    rfl
  · have hsame : g.objectRedraw = false := by
      simp only [Bool.or_eq_true, not_or, Bool.not_eq_true] at hdue
      exact hdue.2
    rw [if_neg hdue, if_neg hdue, ← hsame]

/-- Drawing is the background, the foregrounds and the object, each on what the others have left. -/
theorem drawn (drawing : Drawing) (g : Stage) :
    Drawn drawing g (g.draw drawing).1 (g.draw drawing).2.1 (g.draw drawing).2.2 := by
  unfold draw
  dsimp only
  have hbackground := drawBackground_eq g drawing
  generalize hb : drawBackground drawing g = b at hbackground
  subst hbackground
  dsimp only
  obtain ⟨foregrounds, heq, hforeground⟩ := drawForegrounds_eq drawing g.clears
    { g with
      background := if g.clears then g.background.map settle else g.background
      backgroundRedraw := false }
  rw [heq, drawObject_eq]
  dsimp only at hforeground ⊢
  exact
    { background := rfl
      backgroundRedraw := rfl
      foreground := hforeground
      foregroundRedraw := rfl
      object := rfl
      objectRedraw := rfl
      mask := rfl
      cues := by
        rw [hb]
        rfl
      changed := rfl }

end Rio.Stage

namespace Rio.Screenplay

/-- What drawing depends on. -/
def Context.drawing (c : Context) : Stage.Drawing :=
  ⟨c.profile.useAtlMatrixcolor, c.profile.accurateZorder⟩

end Rio.Screenplay

namespace Rio.Renpy

/-- Adds a cue to a document. -/
def Document.cue (d : Document) : Stage.Cue → Document
  | .draw shot lines => d.shot shot lines
  | .hide tag => d.statement (.hide tag)

end Rio.Renpy

namespace Rio.Screenplay

theorem foldl_cue (cues : List Stage.Cue) (s : State) :
    cues.foldl State.cue s = { s with document := cues.foldl Renpy.Document.cue s.document } := by
  induction cues generalizing s with
  | nil => rfl
  | cons cue cues ih =>
    rw [List.foldl_cons, List.foldl_cons, ih]
    cases cue <;> rfl

/-- Drawing changes the stage and the document only. -/
theorem draw_eq (c : Context) (s : State) :
    (draw c s).2 =
      { s with
        stage := (s.stage.draw c.drawing).1
        document := (s.stage.draw c.drawing).2.1.foldl Renpy.Document.cue s.document } :=
  foldl_cue _ _

end Rio.Screenplay
