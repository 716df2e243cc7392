import Rio.Proofs.Stage.Tracking

/-!
# Clean pictures

A picture that is not dirty is left out of a drawing. That loses nothing only if whatever is done
to a picture after it was drawn either leaves it as it is, down to its last field, or makes it
dirty. Every edit decides that by a comparison of its own: a replacement looks at the name and at
the position before the key frames, a tint at the tint, a view at the scale and the turn, and a
key frame at nothing.

`Edit.Agrees` says when an edit asks for what the picture is already, and the argument is in two
lemmas about one edit:

> `edit_of_agrees`: an edit that agrees with the picture leaves it as it is;
> `dirty_edit_of_not_agrees`: any other makes it dirty, and no edit takes that back
> (`dirty_edit_of_dirty`).

So a picture that is clean after a sequence of edits is the one from before (`edits_eq_of_clean`),
and it is clean just if all of them agree with it (`clean_edits_iff`).

What waits to be played is consistent at all times (`fits_perform`): the key frames lead from the
position before them to the position after them, each from the end of the one before, so the two
positions differ by their displacements (`Leads.stop_eq`).
-/

namespace Rio.Stage

open Renpy (Origin Place)

/-- How far key frames lead together. -/
def displacement : List KeyFrame → Int × Int
  | [] => (0, 0)
  | f :: rest => (f.dx + (displacement rest).1, f.dy + (displacement rest).2)

/-- By induction on the frames, the way from the start to the end is the sum of their offsets. -/
theorem Leads.stop_eq {start stop : Int × Int} {frames : List KeyFrame}
    (h : Leads start frames stop) :
    stop = (start.1 + (displacement frames).1, start.2 + (displacement frames).2) := by
  induction frames generalizing start with
  | nil =>
    obtain rfl : start = stop := h
    simp only [displacement, Int.add_zero]
  | cons f frames ih =>
    obtain ⟨hx, hy, hrest⟩ := h
    rw [ih hrest, hx, hy]
    simp only [displacement, Int.add_assoc]

namespace Picture

/-- A change that a script asks for. -/
inductive Edit where
  | replace (name : String) (x y : Int)
  | tint (index : Int)
  | viewport (zoom xpan ypan : Int)
  | frame (kind : FrameKind) (dx dy ms fade : Int)

/-- The picture after an edit. -/
def edit (p : Picture) : Edit → Picture
  | .replace name x y => p.replace name x y
  | .tint index => p.setTint index
  | .viewport zoom xpan ypan => p.setViewport zoom xpan ypan
  | .frame kind dx dy ms fade => p.addFrame kind dx dy ms fade

/-- The picture after some edits. -/
def edits (p : Picture) (es : List Edit) : Picture :=
  es.foldl edit p

/-- Anything that is done to a picture: an edit, or one of the two things that drawing it does. -/
inductive Operation where
  | edit (e : Edit)
  | flatten
  | markDrawn

/-- The picture after an operation. -/
def operate (p : Picture) : Operation → Picture
  | .edit e => p.edit e
  | .flatten => p.flatten
  | .markDrawn => p.markDrawn

/-- The picture after some operations. -/
def perform (p : Picture) (operations : List Operation) : Picture :=
  operations.foldl operate p

/-- An edit asks for what a picture is already. A key frame never does, even if it leads nowhere,
since playing it takes its time. -/
def Edit.Agrees (p : Picture) : Edit → Prop
  | .replace name x y => p.name = name ∧ p.base = (x, y)
  | .tint index => p.tint = index
  | .viewport zoom xpan ypan => p.zoom = zoom ∧ p.pan = (xpan, ypan)
  | .frame .. => False

section Edits

variable {p : Picture} {e : Edit} {es : List Edit}

theorem differs_iff {name : String} {x y : Int} :
    p.differs name x y = true ↔ p.name ≠ name ∨ p.base ≠ (x, y) := by
  unfold differs
  rw [Bool.not_eq_true', Bool.and_eq_false_iff, beq_eq_false_iff_ne, beq_eq_false_iff_ne]

/-! ### One edit -/

/-- An edit that asks for what is there changes nothing. -/
theorem edit_of_agrees (h : e.Agrees p) : p.edit e = p := by
  cases e with
  | replace name x y =>
    obtain ⟨hname, hbase⟩ := h
    refine replace_of_not_differs (Bool.eq_false_iff.mpr fun hdiffers => ?_)
    exact (differs_iff.mp hdiffers).elim (absurd hname) (absurd hbase)
  | tint index => exact setTint_of_eq h
  | viewport zoom xpan ypan =>
    obtain ⟨hzoom, hpan⟩ := h
    exact setViewport_of_eq hzoom hpan
  | frame kind dx dy ms fade => exact h.elim

/-- Any other edit asks for a new drawing. -/
theorem dirty_edit_of_not_agrees (h : ¬e.Agrees p) : (p.edit e).dirty = true := by
  cases e with
  | replace name x y =>
    have hdiffers : p.differs name x y = true := differs_iff.mpr (Decidable.not_and_iff_or_not.mp h)
    show (p.replace name x y).dirty = true
    rw [replace_of_differs hdiffers]
  | tint index =>
    show (p.setTint index).dirty = true
    rw [setTint_of_ne h]
  | viewport zoom xpan ypan =>
    show (p.setViewport zoom xpan ypan).dirty = true
    rw [setViewport_of_ne h]
  | frame kind dx dy ms fade => rfl

/-- No edit makes a dirty picture clean. -/
theorem dirty_edit_of_dirty (h : p.dirty = true) (e : Edit) : (p.edit e).dirty = true := by
  by_cases hagrees : e.Agrees p
  · rw [edit_of_agrees hagrees, h]
  · exact dirty_edit_of_not_agrees hagrees

/-! ### Any number of edits -/

theorem dirty_edits_of_dirty (h : p.dirty = true) (es : List Edit) : (p.edits es).dirty = true :=
  List.foldlRecOn (motive := fun q : Picture => q.dirty = true) es edit h fun _ hdirty e _ =>
    dirty_edit_of_dirty hdirty e

/-- So edits that all agree with a picture leave it. -/
theorem edits_of_agrees (h : ∀ e ∈ es, e.Agrees p) : p.edits es = p := by
  induction es with
  | nil => rfl
  | cons e es ih =>
    obtain ⟨he, hes⟩ := List.forall_mem_cons.mp h
    show (p.edit e).edits es = p
    rw [edit_of_agrees he, ih hes]

/-- The first edit that does not agree with the picture makes it dirty for good. -/
theorem agrees_of_clean_edits (h : (p.edits es).dirty = false) : ∀ e ∈ es, e.Agrees p := by
  induction es with
  | nil => exact List.forall_mem_nil _
  | cons e es ih =>
    have hrest : ((p.edit e).edits es).dirty = false := h
    -- an edit that agrees is as good as none, so the induction need not generalise the picture
    by_cases hagrees : e.Agrees p
    · rw [edit_of_agrees hagrees] at hrest
      exact List.forall_mem_cons.mpr ⟨hagrees, ih hrest⟩
    · rw [dirty_edits_of_dirty (dirty_edit_of_not_agrees hagrees) es] at hrest
      cases hrest

/-- A picture that is clean after edits is the picture before them. -/
theorem edits_eq_of_clean (h : (p.edits es).dirty = false) : p.edits es = p :=
  edits_of_agrees (agrees_of_clean_edits h)

theorem clean_edits_iff (hclean : p.dirty = false) :
    (p.edits es).dirty = false ↔ ∀ e ∈ es, e.Agrees p :=
  ⟨agrees_of_clean_edits, fun h => by rw [edits_of_agrees h, hclean]⟩

end Edits

/-! ### Any number of operations -/

/-- Every edit is a change of the kind that the stage knows. -/
theorem exists_change (p : Picture) (e : Edit) : ∃ redraw, p.Change (p.edit e) redraw := by
  cases e with
  | replace name x y => exact ⟨_, .replace name x y⟩
  | tint index => exact ⟨_, .tint index⟩
  | viewport zoom xpan ypan => exact ⟨_, .viewport zoom xpan ypan⟩
  | frame kind dx dy ms fade => exact ⟨_, .frame kind dx dy ms fade⟩

theorem Fits.operate {place : Place} {p : Picture} (h : p.Fits place) (o : Operation) :
    (p.operate o).Fits place := by
  cases o with
  | edit e =>
    obtain ⟨_, hchange⟩ := p.exists_change e
    exact (hchange.fits h).1
  | flatten => exact ⟨h.origin, rfl⟩
  | markDrawn => exact ⟨h.origin, h.leads⟩

/-- What is done to a new picture leaves it fit for its place, by induction on the operations. -/
theorem fits_perform (place : Place) (name : String) (x y : Int) (operations : List Operation) :
    ((new name x y place.origin).perform operations).Fits place :=
  List.foldlRecOn operations Picture.operate (.new place name x y) fun _ h o _ => h.operate o

/-- The key frames that wait lead from where a picture stands to where it will be, whatever was
done to it. -/
theorem leads_perform (name : String) (x y : Int) (origin : Origin) (operations : List Operation) :
    let p := (new name x y origin).perform operations
    Leads p.base p.frames p.pos := by
  -- that key frames lead on is known of pictures in a place, and there is a place for either origin
  cases origin with
  | screen => exact (fits_perform .object name x y operations).leads
  | image => exact (fits_perform .background name x y operations).leads

/-- For every picture that comes about by any operations:

- if it is drawn and then edited, and is still clean, then all of it is as it was drawn, and so
  are the lines of its block; and it is clean just if every edit asked for what it was already;
- a replacement tells that it changed something just if the name or the position before the key
  frames is another one; then no key frames wait and the picture stands at the new position, and
  otherwise it is as before;
- the key frames that wait lead from the position before them to the position after them, which is
  the first one moved by all their displacements. -/
theorem clean_is_unchanged (name : String) (x y : Int) (origin : Origin)
    (operations : List Operation) :
    let p := (new name x y origin).perform operations
    (∀ es : List Edit,
      let drawn := p.flatten.markDrawn
      let q := drawn.edits es
      (q.dirty = false → q = drawn ∧ ∀ useMatrixcolor,
        q.atl useMatrixcolor = drawn.atl useMatrixcolor) ∧
      (q.dirty = false ↔ ∀ e ∈ es, e.Agrees drawn)) ∧
    (∀ (name' : String) (x' y' : Int), ∃ (q : Picture) (changed : Bool),
      Figure.replace name' x' y' (.picture p) = .ok (.picture q, changed) ∧
      (changed = true ↔ p.name ≠ name' ∨ p.base ≠ (x', y')) ∧
      (changed = true → q.name = name' ∧ q.frames = [] ∧ q.base = (x', y') ∧ q.pos = (x', y')) ∧
      (changed = false → q = p)) ∧
    Leads p.base p.frames p.pos ∧
    p.pos = (p.base.1 + (displacement p.frames).1, p.base.2 + (displacement p.frames).2) := by
  intro p
  have hleads : Leads p.base p.frames p.pos := leads_perform name x y origin operations
  refine ⟨fun es => ⟨fun hclean => ?_, clean_edits_iff rfl⟩, fun name' x' y' => ?_, hleads,
    hleads.stop_eq⟩
  · have hsame := edits_eq_of_clean hclean
    exact ⟨hsame, fun useMatrixcolor => by rw [hsame]⟩
  · refine ⟨p.replace name' x' y', p.differs name' x' y', rfl, differs_iff, fun hdiffers => ?_,
      replace_of_not_differs⟩
    rw [replace_of_differs hdiffers]
    exact ⟨rfl, rfl, rfl, rfl⟩

/-- A picture that was drawn stands where its key frames led to: to replace it there changes
nothing, to replace it where it stood before does. -/
theorem clean_at_goal :
    let p := (new "bg" 0 0 .screen).perform [.edit (.frame .linear 400 0 500 0)]
    let drawn := p.flatten.markDrawn
    let q := drawn.edits [.tint 0, .replace "bg" 400 0]
    q.dirty = false ∧ q = drawn ∧ (drawn.edits [.replace "bg" 0 0]).dirty = true := by
  intro p drawn q
  have hclean : q.dirty = false := by decide
  obtain ⟨hdrawn, -⟩ := clean_is_unchanged "bg" 0 0 .screen [.edit (.frame .linear 400 0 500 0)]
  exact ⟨hclean, ((hdrawn [.tint 0, .replace "bg" 400 0]).1 hclean).1, by decide⟩

end Picture

end Rio.Stage
