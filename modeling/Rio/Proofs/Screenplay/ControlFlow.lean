import Rio.Proofs.BlockGraph.Leaders
import Rio.Proofs.Screenplay.Nesting
import Rio.Transpile

/-!
# A screenplay runs as its script does

The script is flat, with branches that skip a number of bytes; the screenplay is indented, with
blocks that end where rows are less deep. `transpile_shows` says that a player cannot tell the two
apart:

> if a script is structured, then for every oracle its screenplay, entered at the script's own
> label, shows the events that the script shows.

The relation between the two machines is `Stands`: at an address the player stands in front of the
rows of a spot there, apart from rows that it steps over. Each operation of the script is answered
by the one row it became; `Spot.skip` answers a comparison that fails, `Spot.seek` a jump.

That the label of every goal is set, also of one that lies behind its jumps, is what the block
graph is for: its blocks know the goals of all jumps before the first row is written.
-/

namespace Rio.Screenplay

open Renpy (Label Row Statement)
open Bytecode (Placed)

section

variable {p : Profile} {name : String} {l : List Instruction} {stop addr : Nat} {f : Frame}
  {i : Instruction} {rest : List Instruction}

/-! ## Simulation -/

/-- The player stands in front of the rows of the instructions from an address on, or of rows that
it steps over to get there. -/
def Stands (p : Profile) (name : String) (l : List Instruction) (stop addr : Nat)
    (rows : List Row) : Prop :=
  ∃ noise f rest, rows = noise ++ f.rows p name rest ∧ (∀ r ∈ noise, r.IsSilent) ∧
    Spot l stop addr f rest

theorem Spot.stands (h : Spot l stop addr f rest) :
    Stands p name l stop addr (f.rows p name rest) :=
  ⟨[], f, rest, rfl, by simp, h⟩

/-- In front of an instruction that is no marker of a missing terminator. -/
theorem Stands.exists_instruction {rows : List Row} (h : Stands p name l stop addr rows) :
    ∃ noise f i rest, rows = noise ++ f.rows p name (i :: rest) ∧ (∀ r ∈ noise, r.IsSilent) ∧
      Spot l stop addr f (i :: rest) ∧ i.mnemonic ≠ .notTerminated := by
  obtain ⟨noise, f, rest, rfl, hnoise, hplaced, hsubset, hfits⟩ := h
  cases hplaced with
  | last =>
    exact ⟨noise, f, _, [], rfl, hnoise, ⟨.last, hsubset, hfits⟩, by simp [Instruction.marker]⟩
  | @proper i rest hproper hpos hrest =>
    exact ⟨noise, f, i, rest, rfl, hnoise, ⟨.proper hproper hpos hrest, hsubset, hfits⟩, hproper.1⟩
  | @unterminated i rest hproper hplaced =>
    refine ⟨noise ++ f.reaching name i.addr, f.reach i.addr, i, rest, ?_, ?_,
      ⟨hplaced, fun j hj => hsubset j (List.mem_cons_of_mem _ hj), hfits.reach⟩, hproper.1⟩
    · rw [List.append_assoc]
      rfl
    · intro r hr
      rcases List.mem_append.mp hr with hr | hr
      · exact hnoise r hr
      · exact Frame.isSilent_of_mem_reaching hr

/-- What means nothing is a marker. -/
theorem Script.means_or_marker (hs : Script p name stop l) :
    ∀ i ∈ l, (∃ o, i.operation? p = some o) ∨
      i.mnemonic = .notTerminated ∨ i.mnemonic = .endOfStream := by
  intro i hi
  by_cases hmarker : i.mnemonic = .notTerminated ∨ i.mnemonic = .endOfStream
  · exact Or.inr hmarker
  · exact Or.inl (hs.means i hi (not_or.mp hmarker))

/-- The rows of a whole script. -/
def program (p : Profile) (name : String) (goals : List Nat) (l : List Instruction) : List Row :=
  ⟨0, .label (.script name)⟩ :: (Frame.start goals).rows p name l

variable {goals : List Nat}

/-- No label is set twice. -/
theorem nodup_labels_program (hplaced : Placed stop 0 l) :
    ((program p name goals l).filterMap Row.label?).Nodup := by
  obtain ⟨labelled, hrows, hsorted, -⟩ := labelsFrom_rows hplaced p name (Frame.start goals)
  have hfirst : (program p name goals l).filterMap Row.label?
      = (Label.script name).text :: labelled.map fun a => (Label.address name a).text := by
    rw [← hrows]
    exact List.filterMap_cons_some rfl
  rw [hfirst, List.nodup_cons]
  constructor
  · intro hmem
    obtain ⟨a, -, ha⟩ := List.mem_map.mp hmem
    exact Label.script_ne_address name a ha.symm
  · refine List.Pairwise.map _ ?_ hsorted
    intro a b hlt htext
    exact absurd (Label.address_inj htext) (Nat.ne_of_lt hlt)

/-- The frame before the first instruction fits. -/
theorem Script.spot (hs : Script p name stop l)
    (hgoals : ∀ goal, goal ∈ goals ↔ ∃ i ∈ l, i.goal? = some goal) :
    Spot l stop 0 (Frame.start goals) l :=
  ⟨hs.placed, fun _ hi => hi,
    ⟨List.Pairwise.nil, by simp [Frame.start], by simp [Frame.start],
      fun goal hgoal => (hgoals goal).mp hgoal⟩⟩

/-- A jump finds the label of its goal. -/
theorem Script.seek_goal (hs : Script p name stop l)
    (hgoals : ∀ goal, goal ∈ goals ↔ ∃ i ∈ l, i.goal? = some goal) (hi : i ∈ l) {goal : Nat}
    (hgoal : i.goal? = some goal) :
    Renpy.seek (Label.address name goal).text (program p name goals l) ≠ [] ∧
      Stands p name l stop goal
        (Renpy.seek (Label.address name goal).text (program p name goals l)) := by
  have hfirst : ∀ r ∈ [(⟨0, .label (.script name)⟩ : Row)],
      r.sets (Label.address name goal).text = false := by
    intro r hr
    rw [List.mem_singleton.mp hr]
    exact beq_false_of_ne fun h => Label.script_ne_address name goal (Option.some.inj h)
  obtain ⟨r, g, rest', hsilent, hseek, hspot⟩ := (hs.spot hgoals).seek hs
    ((hgoals goal).mpr ⟨i, hi, hgoal⟩) (Nat.zero_le _)
  have hprogram : Renpy.seek (Label.address name goal).text (program p name goals l)
      = r :: g.rows p name rest' := by
    rw [program, ← List.singleton_append, Renpy.seek_append hfirst, hseek]
  rw [hprogram]
  refine ⟨by simp, [r], g, rest', rfl, ?_, hspot⟩
  intro r' hr'
  rw [List.mem_singleton.mp hr']
  exact hsilent

/-- A goto finds no label. -/
theorem Script.seek_script (hs : Script p name stop l) (hi : i ∈ l) {script : String}
    (hscript : i.script? p = some script) :
    Renpy.seek (Label.script script).text (program p name goals l) = [] := by
  obtain ⟨hname, haddress⟩ := hs.structured.leaves i hi script hscript
  have hnone : ∀ r ∈ program p name goals l, r.sets (Label.script script).text = false := by
    intro r hr
    rw [← Bool.not_eq_true]
    intro hsets
    rcases List.mem_cons.mp hr with rfl | hr
    · have htext : (Label.script name).text = (Label.script script).text :=
        Option.some.inj (beq_iff_eq.mp hsets)
      exact hname ((String.append_right_inj _).mp htext).symm
    · obtain ⟨a, ha⟩ := Frame.sets_of_mem_rows hr hsets
      exact haddress a (Label.eq_of_script_text ha)
  rw [← List.append_nil (program p name goals l), Renpy.seek_append hnone]
  rfl

/-- The row of an operation makes the move of the operation. -/
theorem Script.agrees_operation (hs : Script p name stop l)
    (hgoals : ∀ goal, goal ∈ goals ↔ ∃ i ∈ l, i.goal? = some goal)
    (hspot : Spot l stop addr f (i :: rest)) {o : Operation} (ho : i.operation? p = some o) :
    (o.move i.next).Agrees (Stands p name l stop)
      (Renpy.follow (program p name goals l)
        (⟨(f.reach addr).depth, o.statement name⟩ ::
          ((f.reach addr).perform o).rows p name rest)) := by
  have hi : i ∈ l := hspot.subset i (List.mem_cons_self ..)
  have hnext := hspot.perform hs ho
  have hof := Instruction.of_operation? ho
  cases o with
  | branch reference cmp value close =>
    refine .ask _ hnext.stands ?_
    have hends : ((f.reach addr).perform (.branch reference cmp value close)).ends
        = [] ++ close :: (f.reach addr).ends := rfl
    obtain ⟨g, rest', hskip, hspot'⟩ := hnext.skip hs hends
    show Stands p name l stop close (Renpy.skipBlock ((f.reach addr).ends.length + 1) _)
    rw [hskip]
    exact hspot'.stands
  | jump goal =>
    obtain ⟨hfound, hgoal⟩ := hs.seek_goal hgoals hi hof.2
    simp only [Renpy.follow, Operation.statement, List.isEmpty_iff]
    rw [if_neg hfound]
    exact .go hgoal
  | leave script =>
    simp only [Renpy.follow, Operation.statement, List.isEmpty_iff]
    rw [if_pos (hs.seek_script hi hof.2)]
    exact .stop _
  | ret => exact .stop _
  | pause ms => exact .tell _ hnext.stands

/-- After the last instruction there are only blocks to fill. -/
theorem Spot.rows_of_last (hspot : Spot l stop addr f (i :: rest))
    (hlast : i.mnemonic = .endOfStream) :
    f.rows p name (i :: rest) = f.reaching name addr ++ (f.reach addr).filling := by
  have hrest : rest = [] := by
    cases hspot.placed with
    | last => rfl
    | proper hproper _ _ => exact absurd hlast hproper.2
    | unterminated _ _ => cases hlast
  have ho : i.operation? p = none := by rw [Instruction.operation?, hlast]; rfl
  rw [hrest, Frame.rows, ho, hspot.placed.addr_eq]
  rfl

/-- The player of the rows answers each move of the machine that runs the script. -/
theorem Script.simulates (hs : Script p name stop l)
    (hgoals : ∀ goal, goal ∈ goals ↔ ∃ i ∈ l, i.goal? = some goal) :
    Simulates (interpret p l) (Renpy.follow (program p name goals l)) (Stands p name l stop) := by
  intro addr rows hstands
  obtain ⟨noise, f, i, rest, rfl, hnoise, hspot, hne⟩ := hstands.exists_instruction
  have hi : i ∈ l := hspot.subset i (List.mem_cons_self ..)
  have haddr := hspot.placed.addr_eq
  have hat : instructionAt? l addr = some i := haddr ▸ hs.placed.instructionAt?_eq i hi hne
  have hsilent : ∀ r ∈ noise ++ f.reaching name addr, r.IsSilent := by
    intro r hr
    rcases List.mem_append.mp hr with hr | hr
    · exact hnoise r hr
    · exact Frame.isSilent_of_mem_reaching hr
  unfold interpret
  rw [hat]
  dsimp only
  -- at the end of the stream only filling is left; elsewhere the operation decides
  by_cases hlast : i.mnemonic = .endOfStream
  · refine ⟨[], ?_, ?_⟩
    · rw [hspot.rows_of_last hlast, ← List.append_assoc, ← List.append_nil (_ ++ _)]
      refine Renpy.silent_append (fun r hr => ?_) []
      rcases List.mem_append.mp hr with hr | hr
      · exact hsilent r hr
      · exact Or.inl (by rw [Frame.eq_of_mem_filling hr])
    · rw [if_pos hlast]
      exact .stop _
  · obtain ⟨o, ho⟩ := hs.means i hi ⟨hne, hlast⟩
    rw [if_neg hlast, ho, Frame.rows, ho, haddr, ← List.append_assoc]
    exact ⟨_, Renpy.silent_append hsilent _, hs.agrees_operation hgoals hspot ho⟩

end

/-! ## The screenplay of a structured script -/

/-- Jumps as the block graph sees them. -/
theorem flow?_eq_jump_iff {i : Instruction} {goal : Nat} :
    i.flow? = some (.jump goal) ↔ i.goal? = some goal := by
  unfold Instruction.flow? Instruction.goal?
  by_cases hm : i.mnemonic = .jmpOffset
  · have hcond : ¬i.mnemonic.isConditional = true := by rw [hm]; decide
    have hjump : i.mnemonic.isJump = true := by rw [hm]; rfl
    rw [if_neg hcond, if_pos hjump, if_pos hm, Option.map_eq_some_iff]
    constructor
    · rintro ⟨goal', hgoal, heq⟩
      rw [hgoal, Flow.jump.inj heq]
    · intro hgoal
      exact ⟨goal, hgoal, rfl⟩
  · have hjump : ¬i.mnemonic.isJump = true := by
      unfold Mnemonic.isJump
      split
      · next h => exact absurd h hm
      · simp
    rw [if_neg hm, if_neg hjump]
    constructor
    · intro h
      split at h
      · obtain ⟨_, -, h⟩ := Option.map_eq_some_iff.mp h
        cases h
      · split at h
        · cases h
        · split at h <;> cases h
    · intro h
      cases h

theorem flow?_eq_branch {i : Instruction} {close : Nat} (h : i.flow? = some (.branch close)) :
    i.close? = some close := by
  unfold Instruction.flow? at h
  unfold Instruction.close?
  split at h
  · next hcond =>
    obtain ⟨close', hclose, heq⟩ := Option.map_eq_some_iff.mp h
    rw [if_pos hcond, hclose, Flow.branch.inj heq]
  · split at h
    · obtain ⟨_, -, h⟩ := Option.map_eq_some_iff.mp h
      cases h
    · split at h
      · cases h
      · split at h <;> cases h

/-- In a structured script nothing leads into the middle of an instruction. -/
theorem Structured.aligned {p : Profile} {name : String} {l : List Instruction}
    (hl : Structured p name l) (stop : Nat) : BlockGraph.Aligned l stop := by
  intro i hi a ha _
  obtain ⟨f, hf, htarget⟩ := Option.bind_eq_some_iff.mp ha
  cases f with
  | branch close =>
    obtain rfl := Option.some.inj htarget
    exact (hl.of_close? hi (flow?_eq_branch hf)).2
  | jump goal =>
    obtain rfl := Option.some.inj htarget
    exact (hl.of_goal? hi (flow?_eq_jump_iff.mp hf)).1
  | procedure names | leave => cases htarget

end Rio.Screenplay

namespace Rio

/-- The screenplay of a structured script is complete, its depths make blocks, and no label is set
twice. Entered at the label of the script it shows what the script shows, whatever the comparisons
come to. -/
theorem transpile_shows (name : String) (script : List UInt8) (p : Profile)
    (hskip : p.adultSkip.enabled = false)
    (hl : Structured p (Unicode.toUpper name) (Bytecode.decode p.version true script)) :
    (transpile name script p).fault = none ∧
      Renpy.WellIndented (transpile name script p).document.rows ∧
      ((transpile name script p).document.rows.filterMap Renpy.Row.label?).Nodup ∧
      ∀ (oracle : Oracle) (events : List Event),
        Shows (interpret p (Bytecode.decode p.version true script)) 0 oracle events ↔
          Shows (Renpy.follow (transpile name script p).document.rows)
            (Renpy.seek (Renpy.Label.script (Unicode.toUpper name)).text
              (transpile name script p).document.rows) oracle events := by
  have hs : Screenplay.Script p (Unicode.toUpper name) script.length
      (Bytecode.decode p.version true script) :=
    ⟨hl, Bytecode.decode_placed p.version true script, fun i hi hproper =>
      hl.exists_operation? (Bytecode.decode_kinds p.version script) hi hproper⟩
  have hgoals := fun goal =>
    (BlockGraph.mem_jumpGoals_iff hs.placed (Screenplay.Structured.aligned hl _) goal).trans
      (exists_congr fun i => and_congr_right fun _ => Screenplay.flow?_eq_jump_iff)
  obtain ⟨hfault, hrows⟩ := Screenplay.ofInstructions_rows hskip name
    (Bytecode.decode p.version true script)
    (BlockGraph.build (Bytecode.decode p.version true script)) hs.means_or_marker
  have hdocument : (transpile name script p).document.rows = Screenplay.program p
      (Unicode.toUpper name) _ (Bytecode.decode p.version true script) := hrows
  rw [hdocument]
  refine ⟨hfault, Screenplay.Frame.wellIndented_start _ _ _ _,
    Screenplay.nodup_labels_program hs.placed, fun oracle events => ?_⟩
  refine shows_iff_of_simulates (hs.simulates hgoals) ?_ oracle events
  refine ⟨[⟨0, .label (.script (Unicode.toUpper name))⟩], _, _, ?_, ?_, hs.spot hgoals⟩
  · exact List.dropWhile_cons_of_neg (by simp [Renpy.Row.sets, Renpy.Row.label?])
  · intro r hr
    rw [List.mem_singleton.mp hr]
    exact Or.inr ⟨_, rfl⟩

/-- Two branches that close together over a pause and a jump to the end, a pause, a branch over a
goto, and a jump back to the start. -/
def nestedBranches : List UInt8 :=
  [0x01, 3, 100, 0, 0, 0, 21, 0, 0, 0, 0, 0x01, 2, 101, 0, 5, 0, 10, 0, 0, 0, 0, 0x82, 100, 0, 0,
   0x06, 56, 0, 0, 0, 0, 0x82, 200, 0, 0, 0x01, 5, 102, 0, 1, 0, 3, 0, 0, 0, 0, 0x07, 0x42, 0,
   0x06, 0, 0, 0, 0, 0]

/-- If every comparison holds, its screenplay pauses once and ends. -/
theorem shows_of_nested_branches :
    Shows (Renpy.follow (transpile "main" nestedBranches {}).document.rows)
      (Renpy.seek (Renpy.Label.script (Unicode.toUpper "main")).text
        (transpile "main" nestedBranches {}).document.rows)
      (fun _ => true)
      [.compare "will_flagbank[100]" .eq 0, .compare "will_flagbank[101]" .le 5, .pause 100,
        .finish] := by
  have hgranted : ∀ i ∈ Bytecode.decode .standard true nestedBranches, ∀ flag ∈ i.comparedFlag?,
      ∃ reference ∈ ["will_flagbank[100]", "will_flagbank[101]", "will_flagbank[102]"],
        Screenplay.flagAccess {} flag = .granted reference := by
    decide +kernel
  have hscript : ∀ i ∈ Bytecode.decode .standard true nestedBranches, ∀ script ∈ i.script? {},
      script = "B" := by
    decide +kernel
  refine ((transpile_shows "main" nestedBranches {} rfl ⟨by decide +kernel, ?_, by decide +kernel,
    by decide +kernel, by decide +kernel, ?_⟩).2.2.2 _ _).mp ⟨20, by decide +kernel⟩
  · intro i hi flag hflag
    obtain ⟨reference, -, h⟩ := hgranted i hi flag hflag
    exact ⟨reference, h⟩
  · intro i hi script hscript'
    rw [hscript i hi script hscript']
    refine ⟨by decide +kernel, fun k h => ?_⟩
    -- the name of the other script is too short
    have hlength := congrArg String.length h
    have hname : (Unicode.toUpper "main").length = 4 := by decide +kernel
    have hone : "B".length = 1 := rfl
    rw [String.length_append, String.length_append, hname] at hlength
    omega

end Rio
