import Rio.Proofs.Renpy.Screen
import Rio.Proofs.Screenplay.Written

/-!
# The stage and the screen

The stage knows what the screen should show; the screen shows what the cues of the drawings have put
there. `Tracks g images` relates the two between drawings, place by place:

> what is shown in a place is what the stage has there, unless the place is to be drawn again and
> its picture has changed; and a place is cleared only if its group is to be drawn again.

Every change of the stage keeps this (`Tracks.change`): what makes a picture another one, or moves
it, also makes it dirty and asks for its group to be drawn. A tint makes a picture dirty without
asking for anything, but neither its name nor its position changes. A drawing keeps it and leaves
nothing to be drawn (`Tracks.draw`), so after a drawing the screen shows the stage
(`Tracks.settled`). A new background clears the screen; then all that is on the stage is shown
again.

That a picture is shown where it stands is a matter of its block, which sets the position before the
key frames that wait and then each step of theirs: `blockPosition_atl` follows them to the end.
-/

namespace Rio.Renpy.Place

/-- What the coordinates of a picture in a place are relative to. -/
def origin : Place → Origin
  | background => .image
  | _ => .screen

/-- The position on the screen of something that the stage has at a position: in fractions of the
sides, and for the background in the other direction, since there the picture moves behind the
screen. -/
def position (place : Place) (pos : Int × Int) : Rat × Rat :=
  match place with
  | background => (mkRat (-pos.1) screenWidth, mkRat (-pos.2) screenHeight)
  | _ => (mkRat pos.1 screenWidth, mkRat pos.2 screenHeight)

end Rio.Renpy.Place

namespace Rio.Stage

open Renpy (AtlLine Image Place Screen Shot Statement Tag blockPosition)

/-! ## Pictures and their blocks -/

/-- Key frames that lead from one position to another. -/
def Leads : Int × Int → List KeyFrame → Int × Int → Prop
  | start, [], stop => start = stop
  | start, f :: rest, stop =>
    f.x = start.1 + f.dx ∧ f.y = start.2 + f.dy ∧ Leads (f.x, f.y) rest stop

/-- A frame that starts where the others lead goes on from there. -/
theorem Leads.concat {start stop : Int × Int} {frames : List KeyFrame}
    (h : Leads start frames stop) {f : KeyFrame} (hx : f.x = stop.1 + f.dx)
    (hy : f.y = stop.2 + f.dy) : Leads start (frames ++ [f]) (f.x, f.y) := by
  induction frames generalizing start with
  | nil =>
    obtain rfl : start = stop := h
    exact ⟨hx, hy, rfl⟩
  | cons f' frames ih => exact ⟨h.1, h.2.1, ih h.2.2⟩

/-- A picture as it stands in a place: its key frames lead from where it was to where it is. -/
structure Picture.Fits (place : Place) (p : Picture) : Prop where
  origin : p.origin = place.origin
  leads : Leads p.base p.frames p.pos

/-- What the screen should show of a picture. -/
def Picture.image (place : Place) (p : Picture) : Image :=
  ⟨Unicode.toUpper p.name, place.position p.pos⟩

section Block

variable {place : Place} {p : Picture}

/-- The offsets of a picture stand for its position. -/
theorem position_eq_fractions (horigin : p.origin = place.origin) (pos : Int × Int) :
    place.position pos = ((p.xOffset pos.1).fraction, (p.yOffset pos.2).fraction) := by
  unfold Picture.xOffset Picture.yOffset Renpy.Offset.fraction
  rw [horigin]
  cases place <;> rfl

/-- Coordinates that are left out are zero. -/
theorem fraction_zero : (p.xOffset 0).fraction = 0 ∧ (p.yOffset 0).fraction = 0 := by
  unfold Picture.xOffset Picture.yOffset Renpy.Offset.fraction
  cases p.origin <;> exact ⟨Rat.zero_mkRat _, Rat.zero_mkRat _⟩

/-- The first lines of a block put the picture where it started. -/
theorem foldl_positionLines (horigin : p.origin = place.origin) :
    p.positionLines.foldl AtlLine.carry (0, 0) = place.position p.base := by
  rw [position_eq_fractions horigin]
  unfold Picture.positionLines
  obtain ⟨hx0, hy0⟩ := fraction_zero (p := p)
  by_cases hx : p.base.1 = 0 <;> by_cases hy : p.base.2 = 0
  · simp [hx, hy, hx0, hy0]
  · simp [hx, hy, hx0, AtlLine.carry]
  · simp [hx, hy, hy0, AtlLine.carry]
  · simp [hx, hy, AtlLine.carry]

/-- How the view is turned and how the picture is tinted does not move it. -/
theorem foldl_viewportLines (position : Rat × Rat) :
    p.viewportLines.foldl AtlLine.carry position = position := by
  unfold Picture.viewportLines
  dsimp only
  split
  · rfl
  · split
    · rfl
    · split <;> split <;> rfl

theorem foldl_tintLines (useMatrixcolor : Bool) (position : Rat × Rat) :
    (if useMatrixcolor then p.tintLines else []).foldl AtlLine.carry position = position := by
  unfold Picture.tintLines
  split
  · split
    · split <;> rfl
    · rfl
  · rfl

/-- A key frame moves the picture to where it ends, also along a side that it leaves out. -/
theorem foldl_frameLines (horigin : p.origin = place.origin) {start : Int × Int} {f : KeyFrame}
    (hx : f.x = start.1 + f.dx) (hy : f.y = start.2 + f.dy) :
    (p.frameLines f).foldl AtlLine.carry (place.position start) = place.position (f.x, f.y) := by
  have hmotion : AtlLine.carry (place.position start)
      (if f.dx == 0 && f.dy == 0 && f.fade == 0 then .rest f.ms
        else .move f.ms (if f.dx == 0 then none else some (p.xOffset f.x))
          (if f.dy == 0 then none else some (p.yOffset f.y))
          (if f.fade == 0 then none else some f.alpha))
      = place.position (f.x, f.y) := by
    rw [position_eq_fractions horigin, position_eq_fractions horigin]
    by_cases hdx : f.dx = 0 <;> by_cases hdy : f.dy = 0 <;> by_cases hfade : f.fade = 0 <;>
      simp [hdx, hdy, hfade, hx, hy, AtlLine.carry]
  unfold Picture.frameLines
  cases f.kind with
  | linear => exact hmotion
  | shake => exact hmotion

/-- By induction on the frames, each carries the picture to where it stops. -/
theorem foldl_frames (horigin : p.origin = place.origin) {start stop : Int × Int}
    {frames : List KeyFrame} (h : Leads start frames stop) :
    (frames.flatMap p.frameLines).foldl AtlLine.carry (place.position start)
      = place.position stop := by
  induction frames generalizing start with
  | nil =>
    obtain rfl : start = stop := h
    rfl
  | cons f frames ih =>
    obtain ⟨hx, hy, hrest⟩ := h
    rw [List.flatMap_cons, List.foldl_append, foldl_frameLines horigin hx hy]
    exact ih hrest

/-- The block of a picture leaves it where it stands. -/
theorem blockPosition_atl (h : p.Fits place) (useMatrixcolor : Bool) :
    blockPosition (p.atl useMatrixcolor) = place.position p.pos := by
  unfold blockPosition Picture.atl
  rw [List.foldl_append, List.foldl_append, List.foldl_append, foldl_positionLines h.origin,
    foldl_viewportLines, foldl_tintLines, foldl_frames h.origin h.leads]

end Block

theorem Picture.Fits.new (place : Place) (name : String) (x y : Int) :
    (Picture.new name x y place.origin).Fits place :=
  ⟨rfl, rfl⟩

theorem Picture.Fits.settle {place : Place} {p : Picture} (h : p.Fits place) :
    (settle p).Fits place :=
  ⟨h.origin, rfl⟩

/-- A change of a picture asks for it to be drawn, or leaves what should be shown of it as it is. -/
theorem Picture.Change.fits {place : Place} {p p' : Picture} {redraw : Bool}
    (h : p.Change p' redraw) (hfits : p.Fits place) :
    p'.Fits place ∧ (redraw = true ∧ p'.dirty = true ∨
      p'.image place = p.image place ∧ (p.dirty = true → p'.dirty = true)) := by
  cases h with
  | replace name x y =>
    unfold Picture.replace
    by_cases hdiffers : p.differs name x y = true
    · rw [if_pos hdiffers, hdiffers]
      exact ⟨⟨hfits.origin, rfl⟩, .inl ⟨rfl, rfl⟩⟩
    · rw [if_neg hdiffers]
      exact ⟨hfits, .inr ⟨rfl, id⟩⟩
  | viewport zoom xpan ypan =>
    unfold Picture.setViewport
    split
    · exact ⟨hfits, .inr ⟨rfl, id⟩⟩
    · exact ⟨⟨hfits.origin, hfits.leads⟩, .inl ⟨rfl, rfl⟩⟩
  | tint tint =>
    unfold Picture.setTint
    split
    · exact ⟨hfits, .inr ⟨rfl, id⟩⟩
    · exact ⟨⟨hfits.origin, hfits.leads⟩, .inr ⟨rfl, fun _ => rfl⟩⟩
  | frame kind dx dy ms fade =>
    exact ⟨⟨hfits.origin, hfits.leads.concat rfl rfl⟩, .inl ⟨rfl, rfl⟩⟩

/-! ## One place -/

/-- The picture in a place. -/
def pictureIn (slot : Option Slot) : Option Picture :=
  slot.bind (·.figure.picture?)

/-- What the screen should show in a place. -/
def imageIn (place : Place) (slot : Option Slot) : Option Image :=
  (pictureIn slot).map (Picture.image place)

/-- What the stage has in a place, whether its group is to be drawn again, and what is shown
there. -/
structure UpToDate (place : Place) (slot : Option Slot) (redraw : Bool) (shown : Option Image) :
    Prop where
  fits : ∀ p, pictureIn slot = some p → p.Fits place
  removal : ∀ taken, slot = some taken → taken.pendingRemoval = true → redraw = true
  current : (redraw = true ∧ ∃ p, pictureIn slot = some p ∧ p.dirty = true) ∨
    shown = imageIn place slot

/-- What a change of the stage does to a place and the flag of its group. -/
inductive Altered (place : Place) (slot : Option Slot) (redraw : Bool) :
    Option Slot → Bool → Prop where
  | same {redraw' : Bool} : (redraw = true → redraw' = true) →
      Altered place slot redraw slot redraw'
  | fresh (name : String) (x y : Int) :
      Altered place slot redraw (some ⟨.picture (.new name x y place.origin), false⟩) true
  | change {taken taken' : Slot} {asks : Bool} : slot = some taken → taken.Change taken' asks →
      Altered place slot redraw (some taken') (redraw || asks)

variable {place : Place} {slot slot' : Option Slot} {redraw redraw' : Bool} {shown : Option Image}

/-- What a change makes out of date asks to be drawn. -/
theorem UpToDate.altered (h : UpToDate place slot redraw shown)
    (halt : Altered place slot redraw slot' redraw') : UpToDate place slot' redraw' shown := by
  cases halt with
  | same hredraw =>
    refine ⟨h.fits, fun taken ht hp => hredraw (h.removal taken ht hp), ?_⟩
    rcases h.current with ⟨hr, hdirty⟩ | hshown
    · exact .inl ⟨hredraw hr, hdirty⟩
    · exact .inr hshown
  | fresh name x y =>
    refine ⟨fun p hp => ?_, fun _ _ _ => rfl, .inl ⟨rfl, _, rfl, rfl⟩⟩
    obtain rfl := Option.some.inj hp
    exact .new place name x y
  | change htaken hchange =>
    subst htaken
    cases hchange with
    | same =>
      rw [Bool.or_false]
      exact h
    | @picture p p' asks pending pending' hpicture hpending =>
      obtain ⟨hfits, hasks⟩ := hpicture.fits (h.fits p rfl)
      refine ⟨fun q hq => ?_, fun taken ht hp => ?_, ?_⟩
      · obtain rfl := Option.some.inj hq
        exact hfits
      · obtain rfl := Option.some.inj ht
        rw [h.removal _ rfl (hpending hp), Bool.true_or]
      -- the picture asks to be drawn, or it looks as it did before
      · rcases hasks with ⟨rfl, hdirty⟩ | ⟨himage, hdirty⟩
        · exact .inl ⟨Bool.or_true _, p', rfl, hdirty⟩
        · rcases h.current with ⟨hr, q, hq, hqdirty⟩ | hshown
          · obtain rfl := Option.some.inj hq
            exact .inl ⟨by rw [hr, Bool.true_or], p', rfl, hdirty hqdirty⟩
          · refine .inr (hshown.trans ?_)
            exact congrArg some himage.symm
    | clear =>
      rw [Bool.or_true]
      refine ⟨h.fits, fun _ _ _ => rfl, ?_⟩
      rcases h.current with ⟨-, hdirty⟩ | hshown
      · exact .inl ⟨rfl, hdirty⟩
      · exact .inr hshown

/-! ## What cues do to one place -/

/-- What is shown in a place after a cue. -/
def Cue.paint (place : Place) (image : Option Image) : Cue → Option Image
  | .draw s lines =>
    if place = s.place then some ⟨s.image, blockPosition lines⟩
    else if s.place = .background then none
    else image
  | .hide t => if t.place? = some place then none else image

/-- The statements of cues do to the screen what the cues do to each place. -/
theorem images_cues (cues : List Cue) (screen : Screen) (place : Place) :
    ((cues.flatMap Cue.statements).foldl Screen.read screen).images place
      = cues.foldl (Cue.paint place) (screen.images place) := by
  induction cues generalizing screen with
  | nil => rfl
  | cons cue cues ih =>
    rw [List.flatMap_cons, List.foldl_append, ih, List.foldl_cons]
    congr 1
    cases cue with
    | draw s lines => exact screen.images_shot s lines place
    | hide t => rfl

/-- The place that a cue is for. -/
def Cue.place? : Cue → Option Place
  | .draw s _ => some s.place
  | .hide t => t.place?

/-- A cue for another place leaves a place as it is, unless it is a new background. -/
theorem Cue.paint_eq {cue : Cue} (hplace : cue.place? ≠ some place)
    (hbackground : cue.place? ≠ some .background) (image : Option Image) :
    cue.paint place image = image := by
  cases cue with
  | draw s lines =>
    have hne : ¬place = s.place := fun h => hplace (congrArg some h.symm)
    have hover : ¬s.place = .background := fun h => hbackground (congrArg some h)
    rw [Cue.paint, if_neg hne, if_neg hover]
  | hide t =>
    rw [Cue.paint]
    exact if_neg hplace

theorem foldl_paint_eq {cues : List Cue}
    (h : ∀ cue ∈ cues, cue.place? ≠ some place ∧ cue.place? ≠ some .background)
    (image : Option Image) : cues.foldl (Cue.paint place) image = image := by
  induction cues with
  | nil => rfl
  | cons cue cues ih =>
    obtain ⟨hplace, hbackground⟩ := h cue (List.mem_cons_self ..)
    rw [List.foldl_cons, Cue.paint_eq hplace hbackground]
    exact ih fun cue' hcue' => h cue' (List.mem_cons_of_mem _ hcue')

/-- Shots that show the pictures of a place. -/
structure Shoots (place : Place) (shot : Picture → Shot) : Prop where
  place_eq : ∀ p, (shot p).place = place
  image_eq : ∀ p, (shot p).image = Unicode.toUpper p.name

/-- Drawing a place gives cues for this place only. -/
theorem place?_of_mem_drawSlot {drawing : Drawing} {cleared : Bool} {tag : Tag}
    {shot : Picture → Shot} (htag : tag.place? = some place) (hshot : Shoots place shot)
    {cue : Cue} (hcue : cue ∈ (drawSlot drawing cleared tag shot slot).2.1) {q : Place}
    (hq : q ≠ place) : cue.place? ≠ some q := by
  -- a cue hides the tag of the place or something drawn elsewhere, or is a shot for the place
  have hcases : cue.place? = some place ∨ cue.place? = none := by
    cases slot with
    | none => cases hcue
    | some taken =>
      obtain ⟨figure, pending⟩ := taken
      cases figure with
      | picture p =>
        rw [drawSlot_picture] at hcue
        split at hcue
        · split at hcue
          · cases hcue
          · rw [List.mem_singleton.mp hcue]
            exact .inl htag
        · split at hcue
          · rw [List.mem_singleton.mp hcue]
            exact .inl (congrArg some (hshot.place_eq p))
          · cases hcue
      | standIn reference =>
        cases pending <;> cases cleared
        · cases hcue
        · cases hcue
        · rw [List.mem_singleton.mp hcue]
          exact .inr rfl
        · cases hcue
  rcases hcases with h | h <;> rw [h]
  · exact fun heq => hq (Option.some.inj heq).symm
  · exact fun heq => (by cases heq)

/-- A place that is drawn if its group is to be drawn again or the screen was cleared. -/
def drawPlace (drawing : Drawing) (cleared redraw : Bool) (tag : Tag) (shot : Picture → Shot)
    (slot : Option Slot) : Option Slot × List Cue × Bool :=
  if cleared || redraw then drawSlot drawing cleared tag shot slot else (slot, [], false)

/-- What a drawing leaves in a place and shows there agree. -/
structure Settled (place : Place) (slot : Option Slot) (shown : Option Image) : Prop where
  fits : ∀ p, pictureIn slot = some p → p.Fits place
  kept : ∀ taken, slot = some taken → taken.pendingRemoval = false
  current : shown = imageIn place slot

theorem Settled.none (place : Place) : Settled place .none .none :=
  ⟨fun _ h => (by cases h), fun _ h => (by cases h), rfl⟩

/-- What is settled is shown as it is. -/
theorem Settled.upToDate (h : Settled place slot shown) : UpToDate place slot false shown := by
  refine ⟨h.fits, fun taken ht hp => ?_, .inr h.current⟩
  rw [h.kept taken ht] at hp
  exact hp

/-- Drawing a place settles it. What is shown before is none after a new background. -/
theorem UpToDate.drawSlot {drawing : Drawing} {cleared : Bool} {tag : Tag} {shot : Picture → Shot}
    (h : UpToDate place slot redraw shown) (hshot : Shoots place shot)
    (htag : ∀ taken, slot = some taken → taken.pendingRemoval = true → tag.place? = some place) :
    Settled place (Stage.drawSlot drawing cleared tag shot slot).1
      ((Stage.drawSlot drawing cleared tag shot slot).2.1.foldl (Cue.paint place)
        (if cleared then none else shown)) := by
  -- without a picture nothing is shown
  have hempty : pictureIn slot = none → shown = none := by
    intro hnone
    rcases h.current with ⟨-, p, hp, -⟩ | hshown
    · rw [hnone] at hp
      cases hp
    · rw [hshown, imageIn, hnone]
      rfl
  cases slot with
  | none =>
    have hshown : (if cleared then none else shown) = (none : Option Image) := by
      rw [hempty rfl, ite_self]
    rw [hshown]
    exact .none place
  | some taken =>
    obtain ⟨figure, pending⟩ := taken
    cases figure with
    | picture p =>
      rw [drawSlot_picture]
      cases pending with
      | true =>
        cases cleared with
        | true => exact .none place
        | false =>
          have hhide : Cue.paint place shown (.hide tag) = none := if_pos (htag _ rfl rfl)
          show Settled place none (Cue.paint place shown (.hide tag))
          rw [hhide]
          exact .none place
      | false =>
        by_cases hdrawn : (cleared || p.dirty) = true
        · rw [if_neg (by simp), if_pos hdrawn]
          refine ⟨fun q hq => ?_, fun taken ht => ?_, ?_⟩
          · obtain rfl := Option.some.inj hq
            exact (h.fits p rfl).settle
          · obtain rfl := Option.some.inj ht
            rfl
          · show Cue.paint place _ (.draw (shot p) _) = some ((settle p).image place)
            rw [Cue.paint, if_pos (hshot.place_eq p).symm, hshot.image_eq,
              blockPosition_atl (h.fits p rfl)]
            rfl
        · -- a picture that did not change is shown as it is
          rw [if_neg (by simp), if_neg hdrawn]
          obtain ⟨rfl, hclean⟩ : cleared = false ∧ p.dirty = false := by simpa using hdrawn
          refine ⟨h.fits, fun taken ht => ?_, ?_⟩
          · obtain rfl := Option.some.inj ht
            rfl
          · rcases h.current with ⟨-, q, hq, hdirty⟩ | hshown
            · obtain rfl := Option.some.inj hq
              rw [hclean] at hdirty
              cases hdirty
            · exact hshown
    | standIn reference =>
      have hshown : (if cleared then none else shown) = (none : Option Image) := by
        rw [hempty rfl, ite_self]
      rw [hshown]
      cases pending with
      | true =>
        cases cleared with
        | true => exact .none place
        | false => exact .none place
      | false =>
        refine ⟨fun q hq => (by cases hq), fun taken ht => ?_, rfl⟩
        obtain rfl := Option.some.inj ht
        rfl

/-- So does leaving it alone where nothing is to be drawn. -/
theorem UpToDate.drawPlace (h : UpToDate place slot redraw shown) (drawing : Drawing)
    (cleared : Bool) (tag : Tag) {shot : Picture → Shot} (hshot : Shoots place shot)
    (htag : ∀ taken, slot = some taken → taken.pendingRemoval = true → tag.place? = some place) :
    Settled place (Stage.drawPlace drawing cleared redraw tag shot slot).1
      ((Stage.drawPlace drawing cleared redraw tag shot slot).2.1.foldl (Cue.paint place)
        (if cleared then none else shown)) := by
  unfold Stage.drawPlace
  by_cases hdue : (cleared || redraw) = true
  · rw [if_pos hdue]
    exact h.drawSlot hshot htag
  · rw [if_neg hdue]
    obtain ⟨rfl, rfl⟩ : cleared = false ∧ redraw = false := by simpa using hdue
    refine ⟨h.fits, fun taken ht => ?_, ?_⟩
    · cases hpending : taken.pendingRemoval with
      | false => rfl
      | true => cases h.removal taken ht hpending
    · rcases h.current with ⟨hredraw, -⟩ | hshown
      · cases hredraw
      · exact hshown

/-! ## The whole stage -/

/-- What the stage has in a place. A background is never cleared. -/
def slot? (g : Stage) : Place → Option Slot
  | .background => g.background.map fun p => ⟨.picture p, false⟩
  | .foreground index => g.foreground? index
  | .object => g.object

/-- Whether the group of a place is to be drawn again. -/
def redraws (g : Stage) : Place → Bool
  | .background => g.backgroundRedraw
  | .foreground _ => g.foregroundRedraw
  | .object => g.objectRedraw

/-- What the screen should show of the stage in a place. -/
def image? (g : Stage) (place : Place) : Option Image :=
  imageIn place (g.slot? place)

/-- The screen as far as it is up to date with the stage. -/
def Tracks (g : Stage) (images : Place → Option Image) : Prop :=
  ∀ place, UpToDate place (g.slot? place) (g.redraws place) (images place)

variable {g g' : Stage} {images : Place → Option Image}

theorem tracks_empty : Tracks {} fun _ => none := by
  intro place
  have hnone : ({} : Stage).slot? place = none := by
    cases place <;> rfl
  rw [hnone]
  exact ⟨fun _ h => (by cases h), fun _ h => (by cases h), .inr rfl⟩

/-- A change of the stage, place by place. -/
theorem Change.altered (h : g.Change g') (place : Place) :
    Altered place (g.slot? place) (g.redraws place) (g'.slot? place) (g'.redraws place) := by
  cases h with
  | newBackground name x y =>
    cases place with
    | background => exact .fresh name x y
    | foreground | object => exact .same id
  | @background p p' redraw hp hchange =>
    cases place with
    | background =>
      have hslot : g.slot? .background = some ⟨.picture p, false⟩ := by
        rw [slot?, hp]
        rfl
      show Altered _ _ _ (some ⟨.picture p', false⟩) (g.backgroundRedraw || redraw)
      exact .change hslot (.picture hchange id)
    | foreground | object => exact .same id
  | @newForeground index name x y hnone =>
    cases place with
    | foreground k =>
      show Altered _ _ _ ((g.setForeground index (.fresh name x y)).foreground? k) true
      rw [foreground?_setForeground]
      split
      · exact .fresh name x y
      · exact .same fun _ => rfl
    | background | object => exact .same id
  | @foreground index taken taken' redraw hslot hchange =>
    cases place with
    | foreground k =>
      show Altered _ _ _ ((g.setForeground index taken').foreground? k)
        (g.foregroundRedraw || redraw)
      rw [foreground?_setForeground]
      split
      · next hk => exact .change (hk ▸ hslot) hchange
      · -- the places beside it are of the same group
        refine .same fun hredraw => ?_
        have hflag : g.foregroundRedraw = true := hredraw
        rw [hflag, Bool.true_or]
    | background | object => exact .same id
  | newObject name x y =>
    cases place with
    | object => exact .fresh name x y
    | background | foreground => exact .same id
  | object hslot hchange =>
    cases place with
    | object => exact .change hslot hchange
    | background | foreground => exact .same id
  | setting tint mask inSegment _ => cases place <;> exact .same id

/-- A change of the stage leaves the screen, and asks for what it makes out of date. -/
theorem Tracks.change (h : Tracks g images) (hchange : g.Change g') : Tracks g' images :=
  fun place => (h place).altered (hchange.altered place)

/-! ## Drawing the whole stage -/

section Drawing

variable {drawing : Drawing}

theorem shoots_background : Shoots .background fun p => .background (Unicode.toUpper p.name) :=
  ⟨fun _ => rfl, fun _ => rfl⟩

theorem shoots_foreground (drawing : Drawing) (index : Nat) :
    Shoots (.foreground index) (foregroundShot drawing index) :=
  ⟨fun _ => rfl, fun _ => rfl⟩

theorem shoots_object (drawing : Drawing) : Shoots .object (objectShot drawing) :=
  ⟨fun _ => rfl, fun _ => rfl⟩

/-- A new background takes everything else from the screen. -/
theorem foldl_drawBackground (g : Stage) (hplace : place ≠ .background) (image : Option Image) :
    (drawBackground drawing g).2.1.foldl (Cue.paint place) image
      = if g.clears then none else image := by
  rw [drawBackground_eq]
  dsimp only
  by_cases hclears : g.clears = true
  · rw [if_pos hclears, if_pos hclears]
    obtain ⟨p, hp⟩ : ∃ p, g.background = some p := by
      cases hbackground : g.background with
      | none => simp [clears, hbackground] at hclears
      | some p => exact ⟨p, rfl⟩
    rw [hp]
    show Cue.paint place image (.draw (.background _) _) = none
    rw [Cue.paint, Shot.place, if_neg hplace, if_pos rfl]
  · rw [if_neg hclears, if_neg hclears]
    rfl

/-- The cues of the foregrounds from `index` on are for these places. -/
theorem place?_of_mem_drawForegroundsFrom {cleared : Bool} {index : Nat}
    {slots : List (Option Slot)} {cue : Cue}
    (hcue : cue ∈ (drawForegroundsFrom drawing cleared index slots).2.1)
    (hplace : ∀ k, index ≤ k → place ≠ .foreground k) : cue.place? ≠ some place := by
  induction slots generalizing index with
  | nil => cases hcue
  | cons slot rest ih =>
    rcases List.mem_append.mp hcue with hcue | hcue
    · exact place?_of_mem_drawSlot rfl (shoots_foreground drawing index) hcue
        (hplace index (Nat.le_refl _))
    · exact ih hcue fun k hk => hplace k (by omega)

/-- The foregrounds are drawn each on its own. -/
theorem foldl_drawForegroundsFrom (drawing : Drawing) (cleared : Bool) (index : Nat)
    (slots : List (Option Slot)) (k : Nat) (image : Option Image) :
    (drawForegroundsFrom drawing cleared index slots).2.1.foldl
        (Cue.paint (.foreground (index + k))) image
      = (drawForeground drawing cleared (index + k) slots[k]?.join).2.1.foldl
          (Cue.paint (.foreground (index + k))) image := by
  induction slots generalizing index k image with
  | nil => rfl
  | cons slot rest ih =>
    show ((drawForeground drawing cleared index slot).2.1 ++
      (drawForegroundsFrom drawing cleared (index + 1) rest).2.1).foldl _ image = _
    rw [List.foldl_append]
    cases k with
    | zero =>
      -- the places behind leave this one as it is
      apply foldl_paint_eq
      intro cue hcue
      exact ⟨place?_of_mem_drawForegroundsFrom hcue fun j hj heq => by
          have := Place.foreground.inj heq
          omega,
        place?_of_mem_drawForegroundsFrom hcue fun j hj heq => (by cases heq)⟩
    | succ k =>
      have hfirst : (drawForeground drawing cleared index slot).2.1.foldl
          (Cue.paint (.foreground (index + (k + 1)))) image = image := by
        apply foldl_paint_eq
        intro cue hcue
        refine ⟨place?_of_mem_drawSlot rfl (shoots_foreground drawing index) hcue ?_,
          place?_of_mem_drawSlot rfl (shoots_foreground drawing index) hcue ?_⟩
        · intro heq
          have := Place.foreground.inj heq
          omega
        · intro heq
          cases heq
      have hindex : index + (k + 1) = index + 1 + k := by omega
      rw [hfirst, hindex, ih]
      rfl

theorem place?_of_mem_foregroundCues {g : Stage} {cue : Cue}
    (hcue : cue ∈ (foregroundCues drawing g).1) (hplace : ∀ k, place ≠ .foreground k) :
    cue.place? ≠ some place := by
  unfold foregroundCues at hcue
  split at hcue
  · exact place?_of_mem_drawForegroundsFrom hcue fun k _ => hplace k
  · cases hcue

/-- The cues of the foregrounds do nothing elsewhere. -/
theorem foldl_foregroundCues_elsewhere (g : Stage) (hplace : ∀ k, place ≠ .foreground k)
    (image : Option Image) :
    (foregroundCues drawing g).1.foldl (Cue.paint place) image = image := by
  apply foldl_paint_eq
  intro cue hcue
  exact ⟨place?_of_mem_foregroundCues hcue hplace,
    place?_of_mem_foregroundCues hcue fun k heq => (by cases heq)⟩

theorem foldl_foregroundCues (g : Stage) (k : Nat) (image : Option Image) :
    (foregroundCues drawing g).1.foldl (Cue.paint (.foreground k)) image
      = (drawPlace drawing g.clears g.foregroundRedraw (.foreground k) (foregroundShot drawing k)
          (g.foreground? k)).2.1.foldl (Cue.paint (.foreground k)) image := by
  unfold foregroundCues drawPlace
  split
  · have h := foldl_drawForegroundsFrom drawing g.clears 0 g.foregrounds k image
    rw [Nat.zero_add] at h
    exact h
  · rfl

theorem place?_of_mem_drawnObject {g : Stage} {cue : Cue} (hcue : cue ∈ (drawnObject drawing g).2.1)
    (hplace : place ≠ .object) : cue.place? ≠ some place := by
  unfold drawnObject at hcue
  split at hcue
  · exact place?_of_mem_drawSlot rfl (shoots_object drawing) hcue hplace
  · cases hcue

/-- The cues of the object do nothing elsewhere. -/
theorem foldl_drawnObject_elsewhere (g : Stage) (hplace : place ≠ .object)
    (image : Option Image) : (drawnObject drawing g).2.1.foldl (Cue.paint place) image = image := by
  apply foldl_paint_eq
  intro cue hcue
  exact ⟨place?_of_mem_drawnObject hcue hplace, place?_of_mem_drawnObject hcue
    fun heq => (by cases heq)⟩

/-- The background is drawn as a place is that nothing clears. -/
theorem drawPlace_background (drawing : Drawing) (g : Stage) :
    drawPlace drawing false g.backgroundRedraw .object
        (fun p => .background (Unicode.toUpper p.name)) (g.slot? .background)
      = ((if g.clears then g.background.map settle else g.background).map
          fun p => ⟨.picture p, false⟩, (drawBackground drawing g).2) := by
  rw [drawBackground_eq]
  unfold drawPlace slot? clears
  cases g.backgroundRedraw with
  | false => simp
  | true =>
    cases g.background with
    | none => rfl
    | some p =>
      dsimp only [Option.map_some]
      rw [drawSlot_picture]
      cases hdirty : p.dirty <;> simp [hdirty]

/-- What drawing the stage does in a place. -/
def drawnAt (drawing : Drawing) (g : Stage) : Place → Option Slot × List Cue × Bool
  | .background =>
    drawPlace drawing false g.backgroundRedraw .object
      (fun p => .background (Unicode.toUpper p.name))
      (g.slot? .background)
  | .foreground k =>
    drawPlace drawing g.clears g.foregroundRedraw (.foreground k) (foregroundShot drawing k)
      (g.slot? (.foreground k))
  | .object =>
    drawPlace drawing g.clears g.objectRedraw .object (objectShot drawing) (g.slot? .object)

/-- Drawing deals with each place on its own. -/
theorem slot?_draw (drawing : Drawing) (g : Stage) (place : Place) :
    (g.draw drawing).1.slot? place = (drawnAt drawing g place).1 := by
  have hdrawn := drawn drawing g
  cases place with
  | background => rw [drawnAt, drawPlace_background, slot?, hdrawn.background]
  | foreground k =>
    rw [slot?, hdrawn.foreground, drawnAt, drawPlace]
    split <;> rfl
  | object => exact hdrawn.object

/-- Drawing settles every place. -/
theorem Tracks.settled (h : Tracks g images) (drawing : Drawing) (place : Place) :
    Settled place ((g.draw drawing).1.slot? place)
      ((g.draw drawing).2.1.foldl (Cue.paint place) (images place)) := by
  rw [(drawn drawing g).cues, List.foldl_append, List.foldl_append, slot?_draw]
  cases place with
  | background =>
    have hnever : ∀ taken, g.slot? .background = some taken → taken.pendingRemoval = true →
        Tag.object.place? = some .background := by
      intro taken ht hp
      obtain ⟨p, -, rfl⟩ := Option.map_eq_some_iff.mp ht
      cases hp
    have hsettled := (h .background).drawPlace drawing false .object shoots_background hnever
    rw [redraws, drawPlace_background] at hsettled
    rw [foldl_drawnObject_elsewhere g (by decide),
      foldl_foregroundCues_elsewhere g (fun k heq => (by cases heq)), drawnAt, drawPlace_background]
    exact hsettled
  | foreground k =>
    rw [foldl_drawnObject_elsewhere g (by simp), foldl_foregroundCues,
      foldl_drawBackground g (by simp)]
    exact (h (.foreground k)).drawPlace drawing g.clears (.foreground k)
      (shoots_foreground drawing k) fun _ _ _ => rfl
  | object =>
    rw [foldl_foregroundCues_elsewhere g (fun k heq => (by cases heq)),
      foldl_drawBackground g (by simp)]
    exact (h .object).drawPlace drawing g.clears .object (shoots_object drawing) fun _ _ _ => rfl

/-- After a drawing the screen is up to date, and nothing is left to be drawn. -/
theorem Tracks.draw (h : Tracks g images) (drawing : Drawing) :
    Tracks (g.draw drawing).1 fun place =>
      (g.draw drawing).2.1.foldl (Cue.paint place) (images place) := by
  intro place
  have hdrawn := drawn drawing g
  have hflag : (g.draw drawing).1.redraws place = false := by
    cases place with
    | background => exact hdrawn.backgroundRedraw
    | foreground k => exact hdrawn.foregroundRedraw
    | object => exact hdrawn.objectRedraw
  rw [hflag]
  exact (h.settled drawing place).upToDate

end Drawing

end Rio.Stage
