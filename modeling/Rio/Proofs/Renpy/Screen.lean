import Rio.Renpy.Statement

/-!
# The screen behind the statements

What a player sees who reads the statements of a document from first to last: `replay` gives, for
each place on the screen, the image that is shown there and where it stands.

* `scene` shows a background and takes everything else from the screen;
* `show` shows an image in a place, at first in the corner of the screen;
* the lines of the block under either say where the image goes, and the last word on each coordinate
  counts;
* `hide` takes an image from the screen.

Positions are exact fractions of the sides of the screen; how fractions are rounded when they are
written is no matter here. Nothing else that a document says changes what is shown
(`images_of_not_isDisplay`), and a shot with its block changes it as `images_shot` says.
-/

namespace Rio.Renpy

/-- A place on the screen. -/
inductive Place where
  | background
  | foreground (index : Nat)
  | object
deriving Repr, DecidableEq

/-- An image on the screen, with its position in fractions of the width and the height. -/
structure Image where
  name : String
  position : Rat × Rat
deriving Repr, DecidableEq

namespace Shot

/-- The place that a shot fills. -/
def place : Shot → Place
  | background _ => .background
  | foreground index _ _ _ => .foreground index
  | object _ _ => .object

/-- The name of the image that a shot shows, whatever wraps it. -/
def image : Shot → String
  | background name => name
  | foreground _ name _ _ => name
  | object name _ => name

end Shot

/-- The place that a tag names. -/
def Tag.place? : Tag → Option Place
  | foreground index => some (.foreground index)
  | object => some .object
  | standIn _ => none

/-- The fraction of the side that an offset stands for. -/
def Offset.fraction (o : Offset) : Rat :=
  match o.origin with
  | .screen => mkRat o.pixels o.extent
  | .image => mkRat (-o.pixels) o.extent

/-- Where a line leaves an image. -/
def AtlLine.carry (position : Rat × Rat) : AtlLine → Rat × Rat
  | xpos x => (x.fraction, position.2)
  | ypos y => (position.1, y.fraction)
  | pos x y => (x.fraction, y.fraction)
  | move _ x y _ =>
    ((x.map Offset.fraction).getD position.1, (y.map Offset.fraction).getD position.2)
  | _ => position

/-- Where the lines of a block leave an image that starts in the corner. -/
def blockPosition (lines : List AtlLine) : Rat × Rat :=
  lines.foldl AtlLine.carry (0, 0)

/-- What is shown in each place, and the place of the shot whose block is being read. -/
structure Screen where
  images : Place → Option Image := fun _ => none
  focus : Option Place := none

namespace Screen

/-- The screen after a statement. -/
def read (screen : Screen) : Statement → Screen
  | .shot s timed =>
    { images := fun place =>
        if place = s.place then some ⟨s.image, (0, 0)⟩
        else if s.place = .background then none
        else screen.images place
      focus := if timed then some s.place else none }
  | .atl line =>
    { screen with
      images := fun place =>
        if screen.focus = some place then
          (screen.images place).map fun image =>
            { image with position := line.carry image.position }
        else screen.images place }
  | .hide t =>
    { images := fun place => if t.place? = some place then none else screen.images place }
  | .blackScene =>
    { images := fun place => if place = .background then some ⟨"BLACK", (0, 0)⟩ else none }
  | _ => { screen with focus := none }

end Screen

/-- The screen after the statements of a document. -/
def replay (statements : List Statement) : Screen :=
  statements.foldl Screen.read {}

/-- Whether a statement changes what is shown in the places. -/
def Statement.isDisplay : Statement → Bool
  | .shot .. | .atl _ | .hide _ | .blackScene => true
  | _ => false

namespace Screen

theorem images_read_of_not_isDisplay (screen : Screen) {st : Statement}
    (h : st.isDisplay = false) : (screen.read st).images = screen.images := by
  cases st with
  | shot | atl | hide | blackScene => cases h
  | _ => rfl

theorem images_of_not_isDisplay {statements : List Statement}
    (h : ∀ st ∈ statements, st.isDisplay = false) (screen : Screen) :
    (statements.foldl read screen).images = screen.images := by
  induction statements generalizing screen with
  | nil => rfl
  | cons st rest ih =>
    rw [List.foldl_cons, ih fun st' hst' => h st' (List.mem_cons_of_mem _ hst')]
    exact screen.images_read_of_not_isDisplay (h st (List.mem_cons_self ..))

/-- The lines of a block move the image of their shot. -/
theorem images_lines (lines : List AtlLine) {screen : Screen} {place : Place}
    (hfocus : screen.focus = some place) {name : String} {position : Rat × Rat}
    (himage : screen.images place = some ⟨name, position⟩) (q : Place) :
    ((lines.map Statement.atl).foldl read screen).images q =
      if q = place then some ⟨name, lines.foldl AtlLine.carry position⟩ else screen.images q := by
  induction lines generalizing screen position with
  | nil =>
    by_cases hq : q = place
    · rw [if_pos hq, hq]
      exact himage
    · rw [if_neg hq]
      rfl
  | cons line lines ih =>
    have hfocus' : (screen.read (.atl line)).focus = some place := hfocus
    have himage' : (screen.read (.atl line)).images place
        = some ⟨name, line.carry position⟩ := by
      simp [read, hfocus, himage]
    rw [List.map_cons, List.foldl_cons, ih hfocus' himage']
    by_cases hq : q = place
    · rw [if_pos hq, if_pos hq]
      rfl
    · have hother : ¬screen.focus = some q := by
        rw [hfocus]
        exact fun h => hq (Option.some.inj h).symm
      rw [if_neg hq, if_neg hq]
      simp only [read, if_neg hother]

/-- A shot with its block shows its image where the block leads, and a background clears the
rest. -/
theorem images_shot (screen : Screen) (s : Shot) (lines : List AtlLine) (q : Place) :
    ((Statement.shot s (!lines.isEmpty) :: lines.map Statement.atl).foldl read screen).images q =
      if q = s.place then some ⟨s.image, blockPosition lines⟩
      else if s.place = .background then none
      else screen.images q := by
  rw [List.foldl_cons]
  cases lines with
  | nil => rfl
  | cons line lines =>
    have hfocus : (screen.read (.shot s true)).focus = some s.place := rfl
    have himage : (screen.read (.shot s true)).images s.place = some ⟨s.image, (0, 0)⟩ := by
      simp [read]
    show ((List.map _ _).foldl read (screen.read (.shot s true))).images q = _
    rw [images_lines (line :: lines) hfocus himage]
    by_cases hq : q = s.place
    · rw [if_pos hq, if_pos hq]
      rfl
    · rw [if_neg hq, if_neg hq]
      simp only [read, if_neg hq]

end Screen

end Rio.Renpy
