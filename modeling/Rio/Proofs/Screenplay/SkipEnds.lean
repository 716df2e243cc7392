import Rio.Proofs.Screenplay.SkipGuards
import Rio.Proofs.Unicode.Upper

/-!
# The ends of scenes to skip

The guard of a range of scenes jumps to a label at the end of the range. `transpile_skipEnds` says
which jumps and labels a complete screenplay has for a range whose two ends lie in its script:

> the jump is written unless the range starts where it ends, where a later range has a mark, or at
> the end of the script;
> the label is set unless a later range has a mark there or the script ends there, and it is set
> twice where a marker for a missing terminator has the same address.

So a jump may be left without its label, and a label may be set twice (`skipEnd_lost`). There is
one mark for each address, the last one that was given (`skipMark?_eq_some_iff`); it is looked up
for each instruction and also for markers, but not at the end of the script (`skipLines_step`).
What a complete screenplay writes for ranges is then found by going through the instructions
(`skipLines_transpile`).
-/

namespace Rio.Bytecode.Placed

variable {stop addr x : Nat} {l : List Instruction}

/-! ## Coming to an address -/

/-- How often a run comes to an address before the end of the script. -/
def visits (l : List Instruction) (x : Nat) : Nat :=
  l.countP fun i => i.addr == x && i.mnemonic != .endOfStream

theorem visits_cons (i : Instruction) (l : List Instruction) (x : Nat) :
    visits (i :: l) x = visits l x + if i.addr = x ∧ i.mnemonic ≠ .endOfStream then 1 else 0 := by
  unfold visits
  rw [List.countP_cons]
  simp

theorem visits_eq_zero (h : ∀ i ∈ l, i.addr ≠ x) : visits l x = 0 := by
  refine List.countP_eq_zero.mpr fun i hi => ?_
  simp [h i hi]

/-- An instruction lies before the end of the script, and before all that comes later. -/
theorem addr_lt {i : Instruction} {rest : List Instruction} (h : Placed stop addr (i :: rest))
    (hproper : i.IsProper) : i.addr < stop ∧ ∀ j ∈ rest, i.addr < j.addr := by
  have hpos := h.len_pos i (List.mem_cons_self ..) hproper
  constructor
  · have hle := h.next_le i (List.mem_cons_self ..)
    unfold Instruction.next at hle
    omega
  · intro j hj
    have hle := (List.pairwise_cons.mp h.pairwise).1 j hj
    unfold Instruction.next at hle
    omega

/-- A run comes twice to an instruction behind a marker, and once to each other one. -/
theorem visits_eq (h : Placed stop addr l) (hx : ∃ i ∈ l, i.addr = x) :
    visits l x = if x = stop then 0 else if .marker x .notTerminated ∈ l then 2 else 1 := by
  induction h with
  | last =>
    obtain ⟨i, hi, rfl⟩ := hx
    rw [List.mem_singleton.mp hi]
    simp [visits, Instruction.marker]
  | @proper i rest hproper hpos hrest ih =>
    obtain ⟨hstop, hlater⟩ := (Placed.proper hproper hpos hrest).addr_lt hproper
    have hmarker : .marker x .notTerminated ∈ i :: rest ↔ .marker x .notTerminated ∈ rest := by
      rw [List.mem_cons, or_iff_right]
      intro heq
      exact hproper.1 (heq ▸ rfl)
    rw [visits_cons, if_congr hmarker rfl rfl]
    by_cases hhere : i.addr = x
    · subst hhere
      -- addresses grow, so nothing behind the instruction is at its address
      have hnone : .marker i.addr .notTerminated ∉ rest := fun hmem =>
        Nat.lt_irrefl i.addr (hlater (.marker i.addr .notTerminated) hmem)
      rw [visits_eq_zero fun j hj => Nat.ne_of_gt (hlater j hj), if_pos ⟨rfl, hproper.2⟩,
        if_neg (Nat.ne_of_lt hstop), if_neg hnone]
    · have hother : ¬(i.addr = x ∧ i.mnemonic ≠ .endOfStream) := fun h => hhere h.1
      obtain ⟨j, hj, hjx⟩ := hx
      rcases List.mem_cons.mp hj with rfl | hj
      · exact absurd hjx hhere
      · rw [if_neg hother, Nat.add_zero, ih ⟨j, hj, hjx⟩]
  | @unterminated i rest hproper hrest ih =>
    obtain ⟨hstop, hlater⟩ := hrest.addr_lt hproper
    rw [visits_cons]
    by_cases hhere : i.addr = x
    · -- the marker and the instruction are at the address, and nothing behind them is
      subst hhere
      rw [visits_cons, visits_eq_zero fun j hj => Nat.ne_of_gt (hlater j hj),
        if_pos ⟨rfl, hproper.2⟩, if_pos ⟨rfl, fun hend => (by cases hend)⟩,
          if_neg (Nat.ne_of_lt hstop), if_pos (List.mem_cons_self ..)]
    · have hother : ¬((Instruction.marker i.addr .notTerminated).addr = x ∧
          (Instruction.marker i.addr .notTerminated).mnemonic ≠ .endOfStream) := fun h => hhere h.1
      have hmarker : .marker x .notTerminated ∈ .marker i.addr .notTerminated :: i :: rest ↔
          .marker x .notTerminated ∈ i :: rest := by
        rw [List.mem_cons, or_iff_right]
        intro heq
        exact hhere (congrArg Instruction.addr heq).symm
      obtain ⟨j, hj, hjx⟩ := hx
      rcases List.mem_cons.mp hj with rfl | hj
      · exact absurd hjx hhere
      · rw [if_neg hother, Nat.add_zero, ih ⟨j, hj, hjx⟩, if_congr hmarker rfl rfl]

/-- Only at the end of the script there is no instruction to come to. -/
theorem exists_ne_end_iff (h : Placed stop addr l) (hx : ∃ i ∈ l, i.addr = x) :
    (∃ i ∈ l, i.addr = x ∧ i.mnemonic ≠ .endOfStream) ↔ x ≠ stop := by
  have hpos : 0 < visits l x ↔ ∃ i ∈ l, i.addr = x ∧ i.mnemonic ≠ .endOfStream := by
    unfold visits
    rw [List.countP_pos_iff]
    simp
  rw [← hpos, h.visits_eq hx]
  by_cases hstop : x = stop
  · simp [hstop]
  · rw [if_neg hstop]
    split <;> simp [hstop]

end Rio.Bytecode.Placed

namespace Rio.Screenplay

open Renpy (Document Label Statement)

/-! ## The mark at an address -/

/-- A range has an end in the script with a name, at an address. -/
def MarksAt (name : String) (addr : Nat) (range : SkipRange) : Prop :=
  sameIgnoringCase range.start.script name = true ∧ range.start.addr = addr ∨
    sameIgnoringCase range.stop.script name = true ∧ range.stop.addr = addr

instance (name : String) (addr : Nat) (range : SkipRange) : Decidable (MarksAt name addr range) :=
  inferInstanceAs (Decidable (_ ∧ _ ∨ _ ∧ _))

/-- No range behind the one with a number has an end at an address. -/
def Unshared (skip : AdultSkip) (name : String) (index addr : Nat) : Prop :=
  ∀ range ∈ skip.ranges.drop (index + 1), ¬MarksAt name addr range

instance (skip : AdultSkip) (name : String) (index addr : Nat) :
    Decidable (Unshared skip name index addr) :=
  inferInstanceAs (Decidable (∀ range ∈ skip.ranges.drop (index + 1), ¬MarksAt name addr range))

/-- The number of the range that a mark belongs to. -/
def SkipMark.index : SkipMark → Nat
  | start index .. | stop index => index

/-- The marks of ranges that are numbered from `first` on. -/
def marksFrom (name : String) (first : Nat) (ranges : List SkipRange) : List (Nat × SkipMark) :=
  ((ranges.zipIdx first).map fun (range, index) => rangeMarks name range index).flatten

variable {c : Context} {s s' t : State} {i : Instruction} {rest : List Instruction} {name : String}
  {first index addr : Nat} {range : SkipRange} {ranges : List SkipRange} {mark : SkipMark}

theorem marksFrom_append (name : String) (first : Nat) (ranges ranges' : List SkipRange) :
    marksFrom name first (ranges ++ ranges')
      = marksFrom name first ranges ++ marksFrom name (first + ranges.length) ranges' := by
  unfold marksFrom
  rw [List.zipIdx_append, List.map_append, List.flatten_append]

theorem marksFrom_cons (name : String) (first : Nat) (range : SkipRange) (ranges : List SkipRange) :
    marksFrom name first (range :: ranges)
      = rangeMarks name range first ++ marksFrom name (first + 1) ranges := by
  unfold marksFrom
  rw [List.zipIdx_cons, List.map_cons, List.flatten_cons]

/-- A mark of a range has its index and is at one of its ends. -/
theorem index_of_mem_rangeMarks (h : (addr, mark) ∈ rangeMarks name range index) :
    mark.index = index ∧ MarksAt name addr range := by
  unfold rangeMarks at h
  rcases List.mem_append.mp h with h | h
  · split at h
    · next hscript =>
      obtain ⟨rfl, rfl⟩ := Prod.mk.inj (List.mem_singleton.mp h)
      exact ⟨rfl, .inl ⟨hscript, rfl⟩⟩
    · cases h
  · split at h
    · next hscript =>
      obtain ⟨rfl, rfl⟩ := Prod.mk.inj (List.mem_singleton.mp h)
      exact ⟨rfl, .inr ⟨hscript, rfl⟩⟩
    · cases h

theorem exists_mem_rangeMarks (h : MarksAt name addr range) (index : Nat) :
    ∃ mark, (addr, mark) ∈ rangeMarks name range index := by
  unfold rangeMarks
  rcases h with ⟨hscript, rfl⟩ | ⟨hscript, rfl⟩
  · rw [if_pos hscript]
    exact ⟨_, List.mem_append_left _ (List.mem_singleton.mpr rfl)⟩
  · rw [if_pos hscript]
    exact ⟨_, List.mem_append_right _ (List.mem_singleton.mpr rfl)⟩

/-- A mark belongs to one of the ranges that are numbered. -/
theorem index_of_mem_marksFrom (h : (addr, mark) ∈ marksFrom name first ranges) :
    first ≤ mark.index ∧ mark.index < first + ranges.length ∧ ∃ range ∈ ranges,
      MarksAt name addr range := by
  induction ranges generalizing first with
  | nil => cases h
  | cons range ranges ih =>
    rw [marksFrom_cons] at h
    rw [List.length_cons]
    rcases List.mem_append.mp h with h | h
    · obtain ⟨hindex, hmarks⟩ := index_of_mem_rangeMarks h
      exact ⟨by omega, by omega, range, List.mem_cons_self .., hmarks⟩
    · obtain ⟨hlo, hhi, range', hmem, hmarks⟩ := ih h
      exact ⟨by omega, by omega, range', List.mem_cons_of_mem _ hmem, hmarks⟩

theorem exists_mem_marksFrom (hrange : range ∈ ranges) (h : MarksAt name addr range) (first : Nat) :
    ∃ mark, (addr, mark) ∈ marksFrom name first ranges := by
  induction ranges generalizing first with
  | nil => cases hrange
  | cons range' ranges ih =>
    rw [marksFrom_cons]
    rcases List.mem_cons.mp hrange with rfl | hrange
    · obtain ⟨mark, hmem⟩ := exists_mem_rangeMarks h first
      exact ⟨mark, List.mem_append_left _ hmem⟩
    · obtain ⟨mark, hmem⟩ := ih hrange (first + 1)
      exact ⟨mark, List.mem_append_right _ hmem⟩

/-- The last mark at an address counts. -/
theorem mem_of_lookup_reverse {marks : List (Nat × SkipMark)}
    (h : marks.reverse.lookup addr = some mark) : (addr, mark) ∈ marks := by
  obtain ⟨front, behind, heq, -⟩ := List.lookup_eq_some_iff.mp h
  exact List.mem_reverse.mp (heq ▸ List.mem_append_right _ (List.mem_cons_self ..))

theorem not_mem_of_lookup_reverse {marks : List (Nat × SkipMark)}
    (h : marks.reverse.lookup addr = none) : (addr, mark) ∉ marks := by
  intro hmem
  have hne := List.lookup_eq_none_iff.mp h _ (List.mem_reverse.mpr hmem)
  simp at hne

/-- The marks of a list of ranges, taken apart at one of them. -/
theorem skipMarks_eq {skip : AdultSkip} (henabled : skip.enabled = true)
    (hrange : skip.ranges[index]? = some range) (name : String) :
    skipMarks skip name
      = marksFrom name 0 (skip.ranges.take index) ++ (rangeMarks name range index ++
          marksFrom name (index + 1) (skip.ranges.drop (index + 1))) := by
  obtain ⟨hlt, rfl⟩ := List.getElem?_eq_some_iff.mp hrange
  have hmarks : skipMarks skip name = marksFrom name 0 skip.ranges := by
    unfold skipMarks marksFrom
    rw [if_pos henabled]
  have hlength : (skip.ranges.take index).length = index :=
    List.length_take_of_le (Nat.le_of_lt hlt)
  have hsplit := marksFrom_append name 0 (skip.ranges.take index) (skip.ranges.drop index)
  rw [List.take_append_drop, hlength, Nat.zero_add, List.drop_eq_getElem_cons hlt, marksFrom_cons]
    at hsplit
  exact hmarks.trans hsplit

/-- The mark of a range is found at an address if no later range has a mark there, and it is the
last of its own marks there. -/
theorem skipMark?_eq_some_iff (henabled : c.profile.adultSkip.enabled = true)
    (hrange : c.profile.adultSkip.ranges[index]? = some range) (hindex : mark.index = index) :
    c.skipMark? addr = some mark ↔ Unshared c.profile.adultSkip c.name index addr ∧
      (rangeMarks c.name range index).reverse.lookup addr = some mark := by
  unfold Context.skipMark?
  rw [skipMarks_eq henabled hrange, List.reverse_append, List.reverse_append, List.lookup_append,
    List.lookup_append]
  cases hlater : (marksFrom c.name (index + 1)
      (c.profile.adultSkip.ranges.drop (index + 1))).reverse.lookup addr with
  -- a later range marks the address: its mark is the one found, and its index is another
  | some mark' =>
    obtain ⟨hlo, -, range', hrange', hmarks⟩ :=
      index_of_mem_marksFrom (mem_of_lookup_reverse hlater)
    rw [Option.some_or]
    constructor
    · rintro heq
      rw [Option.some.inj heq, hindex] at hlo
      omega
    · intro h
      exact absurd hmarks (h.1 range' hrange')
  -- no later range does, so a mark of the range itself comes before those of the earlier ones
  | none =>
    have hunshared : Unshared c.profile.adultSkip c.name index addr := by
      intro range' hrange' hmarks
      obtain ⟨mark', hmem⟩ := exists_mem_marksFrom hrange' hmarks (index + 1)
      exact not_mem_of_lookup_reverse hlater hmem
    rw [Option.none_or, and_iff_right hunshared]
    cases hown : (rangeMarks c.name range index).reverse.lookup addr with
    | some mark' => rw [Option.some_or]
    | none =>
      rw [Option.none_or]
      refine iff_of_false (fun hbefore => ?_) nofun
      obtain ⟨-, hhi, -⟩ := index_of_mem_marksFrom (mem_of_lookup_reverse hbefore)
      rw [hindex, Nat.zero_add, List.length_take] at hhi
      omega

/-- Of the two ends of a range the second counts. -/
theorem lookup_rangeMarks (hstart : sameIgnoringCase range.start.script name = true)
    (hstop : sameIgnoringCase range.stop.script name = true) (index addr : Nat) :
    (rangeMarks name range index).reverse.lookup addr
      = if addr = range.stop.addr then some (.stop index)
        else if addr = range.start.addr then
          some (.start index range.start.insertTransition (Unicode.toUpper range.stop.script))
        else none := by
  unfold rangeMarks
  rw [if_pos hstart, if_pos hstop]
  show List.lookup addr [(range.stop.addr, _), (range.start.addr, _)] = _
  by_cases hs : addr = range.stop.addr
  · simp [hs]
  · by_cases hb : addr = range.start.addr
    · rw [if_neg hs, if_pos hb, List.lookup_cons, beq_false_of_ne hs, List.lookup_cons, hb]
      simp
    · rw [if_neg hs, if_neg hb, List.lookup_cons, beq_false_of_ne hs, List.lookup_cons,
        beq_false_of_ne hb]
      rfl

section Range

variable (henabled : c.profile.adultSkip.enabled = true)
  (hrange : c.profile.adultSkip.ranges[index]? = some range)
  (hstart : sameIgnoringCase range.start.script c.name = true)
  (hstop : sameIgnoringCase range.stop.script c.name = true)
include henabled hrange hstart hstop

/-- The end of a range is marked unless a later range has a mark there. -/
theorem skipMark?_eq_stop_iff : c.skipMark? addr = some (.stop index) ↔
    addr = range.stop.addr ∧ Unshared c.profile.adultSkip c.name index addr := by
  rw [skipMark?_eq_some_iff henabled hrange rfl, and_comm, lookup_rangeMarks hstart hstop]
  refine and_congr_left fun _ => ?_
  by_cases hs : addr = range.stop.addr
  · simp [hs]
  · rw [if_neg hs]
    split <;> simp [hs]

theorem skipMark?_eq_start_iff {insertTransition : Bool} {stopScript : String} :
    c.skipMark? addr = some (.start index insertTransition stopScript) ↔
      (addr = range.start.addr ∧ addr ≠ range.stop.addr ∧
          insertTransition = range.start.insertTransition ∧
          stopScript = Unicode.toUpper range.stop.script) ∧
        Unshared c.profile.adultSkip c.name index addr := by
  rw [skipMark?_eq_some_iff henabled hrange rfl, and_comm, lookup_rangeMarks hstart hstop]
  refine and_congr_left fun _ => ?_
  by_cases hs : addr = range.stop.addr
  · simp [hs]
  · rw [if_neg hs]
    by_cases hb : addr = range.start.addr
    · rw [if_pos hb, Option.some.injEq, SkipMark.start.injEq, and_iff_right hb, and_iff_right hs,
        and_iff_right rfl, eq_comm (a := range.start.insertTransition),
        eq_comm (a := Unicode.toUpper range.stop.script)]
    · simp [hb]

end Range

/-! ## The lines that lead around ranges -/

/-- Whether a statement sets the label at the end of a range or jumps to it. -/
def namesSkipEnd : Statement → Bool
  | .label (.skipEnd ..) | .jump (.skipEnd ..) => true
  | _ => false

/-- The statements of a document that set or jump to the labels at the ends of ranges. -/
def skipLines (d : Document) : List Statement :=
  d.statements.filter namesSkipEnd

/-- What is written for the mark at an address. -/
def Context.skipLine? (c : Context) (addr : Nat) : Option Statement :=
  match c.skipMark? addr with
  | none => none
  | some (.start index _ stopScript) => some (.jump (.skipEnd stopScript index))
  | some (.stop index) => some (.label (.skipEnd c.name index))

/-- The way around a range starts where the range does. -/
theorem skipLine?_eq_jump_iff {script : String} :
    c.skipLine? addr = some (.jump (.skipEnd script index)) ↔
      ∃ insertTransition, c.skipMark? addr = some (.start index insertTransition script) := by
  unfold Context.skipLine?
  cases c.skipMark? addr with
  | none => simp
  | some mark => cases mark <;> simp [and_comm]

theorem skipLine?_bind_label?_eq_iff :
    (c.skipLine? addr).bind Statement.label? = some (.skipEnd c.name index) ↔
      c.skipMark? addr = some (.stop index) := by
  unfold Context.skipLine?
  cases c.skipMark? addr with
  | none => simp
  | some mark => cases mark <;> simp [Statement.label?]

theorem Written.skipLines_eq (h : Written (fun st => namesSkipEnd st = false) s s') :
    skipLines s'.document = skipLines s.document :=
  h.filter_eq

theorem skipLines_placeSkipMark (s : State) (addr : Nat) :
    skipLines (s.placeSkipMark c addr).document
      = skipLines s.document ++ (c.skipLine? addr).toList := by
  unfold Context.skipLine?
  cases hmark : c.skipMark? addr with
  | none =>
    unfold State.placeSkipMark
    rw [hmark]
    simp
  | some mark =>
    cases mark with
    | start index insertTransition stopScript =>
      unfold skipLines Document.statements
      rw [rows_placeSkipMark_of_start hmark]
      cases insertTransition <;> simp [wayAround, namesSkipEnd]
    | stop index =>
      rw [placeSkipMark_of_stop hmark]
      have hclose : skipLines s.closeScope.document = skipLines s.document :=
        (Written.closeScope (P := fun st => namesSkipEnd st = false) rfl s).skipLines_eq
      rw [← hclose]
      unfold skipLines
      simp [State.header, State.remark, namesSkipEnd]

theorem namesSkipEnd_of_writes {command : Command} {st : Statement} (h : command.writes st = true) :
    namesSkipEnd st = false := by
  cases st with
  | label l => cases command <;> cases h
  | jump l =>
    cases l with
    | skipEnd name index => cases command <;> cases h
    | script | address => rfl
  | _ => rfl

/-- The ends of branches and the labels of addresses are other lines. -/
theorem skipLines_closeBranches_placeLabel (c : Context) (s : State) (addr : Nat) :
    skipLines ((s.closeBranches addr).placeLabel c addr).document = skipLines s.document :=
  (Written.closeBranches_placeLabel (P := fun st => namesSkipEnd st = false) rfl rfl s).skipLines_eq

/-- Coming to an address writes the line of its mark, if it has one. -/
theorem skipLines_arrive (s : State) (i : Instruction) (rest : List Instruction) :
    skipLines (s.arrive c i rest).document
      = skipLines s.document ++ (c.skipLine? i.addr).toList := by
  have hplaced := (skipLines_closeBranches_placeLabel c (s.placeSkipMark c i.addr) i.addr).trans
    (skipLines_placeSkipMark s i.addr)
  unfold State.arrive
  dsimp only
  split
  · exact hplaced
  · exact hplaced

/-- A step writes the line for the mark at its address, unless the script ends there. -/
theorem skipLines_step (h : step c s i rest = .ok s') :
    skipLines s'.document = skipLines s.document ++
      if i.mnemonic = .endOfStream then [] else (c.skipLine? i.addr).toList := by
  cases stepped_of_ok h with
  | ending hend =>
    rw [skipLines_closeBranches_placeLabel, if_pos hend, List.append_nil]
  | unhandled hend hread =>
    have hremark : Written (fun st => namesSkipEnd st = false) (s.arrive c i rest)
        ((s.arrive c i rest).remark (.unhandled (i.listing c.profile.charset c.profile.readers))) :=
      .none (Document.statements_comment ..)
    rw [hremark.skipLines_eq, skipLines_arrive, if_neg hend]
  | command hend hread hexec =>
    have hacts : Acts c (fun st => namesSkipEnd st = false) (s.arrive c i rest) s' :=
      (announce_acts i).trans
        (execute_acts (fun st hst => namesSkipEnd_of_writes hst) (fun _ _ _ => rfl) hexec)
    rw [hacts.written.skipLines_eq, skipLines_arrive, if_neg hend]

end Rio.Screenplay

namespace Rio

open Screenplay
open Renpy (Document Label Statement)

variable {name : String} {script : List UInt8} {profile : Profile}

/-- The lines around ranges in a complete screenplay are those of the marks at the addresses of its
instructions, in their order. -/
theorem skipLines_transpile (hcomplete : (transpile name script profile).isComplete = true) :
    skipLines (transpile name script profile).document
      = ((Bytecode.decode profile.version true script).filter
        (·.mnemonic != .endOfStream)).filterMap
          fun i => (scriptContext name script profile).skipLine? i.addr := by
  obtain ⟨s, hrun⟩ := exists_scriptRun_of_isComplete hcomplete
  have hlines := (runFrom_induction (c := scriptContext name script profile)
    (l := Bytecode.decode profile.version true script)
    (I := fun before s => skipLines s.document
      = (before.filter (·.mnemonic != .endOfStream)).filterMap
          fun i => (scriptContext name script profile).skipLine? i.addr)
    (fun before i rest s s' _ hs hstep => by
      rw [skipLines_step hstep, hs, List.filter_append, List.filterMap_append]
      by_cases hend : i.mnemonic = .endOfStream
      · simp [hend]
      · simp [hend, List.filterMap_cons]
        cases (scriptContext name script profile).skipLine? i.addr <;> rfl)
    _ [] _ 0 rfl rfl).1 s hrun
  rw [(transpile_of_ok hrun).2, ← hlines]
  exact s.document.filter_closeAll rfl

/-- The labels at the ends of ranges, as a run sets them. -/
theorem count_skipEnd_labels (hcomplete : (transpile name script profile).isComplete = true)
    (script' : String) (index : Nat) :
    (transpile name script profile).document.labels.count (.skipEnd script' index)
      = (Bytecode.decode profile.version true script).countP fun i =>
          ((scriptContext name script profile).skipLine? i.addr).bind Statement.label?
              == some (.skipEnd script' index) && i.mnemonic != .endOfStream := by
  have hview : (transpile name script profile).document.labels.count (.skipEnd script' index)
      = ((skipLines (transpile name script profile).document).filterMap Statement.label?).count
          (.skipEnd script' index) := by
    unfold Document.labels skipLines
    rw [List.count_filterMap, List.count_filterMap, List.countP_filter]
    refine List.countP_congr fun st _ => ?_
    cases st with
    | label l => cases l <;> simp [Statement.label?, namesSkipEnd]
    | _ => simp [Statement.label?]
  rw [hview, skipLines_transpile hcomplete, List.filterMap_filterMap, List.count_filterMap,
    List.countP_filter]

/-- The jumps to the ends of ranges. -/
theorem mem_skipEnd_jumps (hcomplete : (transpile name script profile).isComplete = true)
    (script' : String) (index : Nat) :
    .skipEnd script' index ∈ (transpile name script profile).document.jumps ↔
      ∃ i ∈ Bytecode.decode profile.version true script, i.mnemonic ≠ .endOfStream ∧
        (scriptContext name script profile).skipLine? i.addr
          = some (.jump (.skipEnd script' index)) := by
  have hview : .skipEnd script' index ∈ (transpile name script profile).document.jumps ↔
      .jump (.skipEnd script' index) ∈ skipLines (transpile name script profile).document := by
    unfold Document.jumps skipLines
    rw [List.mem_filterMap, List.mem_filter]
    constructor
    · rintro ⟨st, hst, hjump⟩
      cases st with
      | jump l =>
        obtain rfl := Option.some.inj hjump
        exact ⟨hst, rfl⟩
      | _ => cases hjump
    · intro h
      exact ⟨_, h.1, rfl⟩
  rw [hview, skipLines_transpile hcomplete, List.mem_filterMap]
  refine exists_congr fun i => ?_
  rw [List.mem_filter, bne_iff_ne, and_assoc]

section Ends

variable {index : Nat} {range : SkipRange}
  (hcomplete : (transpile name script profile).isComplete = true)
  (henabled : profile.adultSkip.enabled = true)
  (hrange : profile.adultSkip.ranges[index]? = some range)
  (hstart : sameIgnoringCase range.start.script (Unicode.toUpper name) = true)
  (hstop : sameIgnoringCase range.stop.script (Unicode.toUpper name) = true)
include hcomplete henabled hrange hstart hstop

/-- The jump around a range is written where the range starts, if its mark counts there. -/
theorem mem_jumps_iff_start
    (hfirst : ∃ i ∈ Bytecode.decode profile.version true script, i.addr = range.start.addr) :
    .skipEnd (Unicode.toUpper name) index ∈ (transpile name script profile).document.jumps ↔
      range.start.addr ≠ range.stop.addr ∧ range.start.addr ≠ script.length ∧
        Unshared profile.adultSkip (Unicode.toUpper name) index range.start.addr := by
  have hmark : ∀ addr insertTransition stopScript,
      (scriptContext name script profile).skipMark? addr
          = some (.start index insertTransition stopScript) ↔
        (addr = range.start.addr ∧ addr ≠ range.stop.addr ∧
            insertTransition = range.start.insertTransition ∧
            stopScript = Unicode.toUpper range.stop.script) ∧
          Unshared profile.adultSkip (Unicode.toUpper name) index addr :=
    fun _ _ _ => skipMark?_eq_start_iff (c := scriptContext name script profile) henabled hrange
      hstart hstop
  rw [mem_skipEnd_jumps hcomplete,
    ← (Bytecode.decode_placed profile.version true script).exists_ne_end_iff hfirst]
  constructor
  · rintro ⟨i, hi, hend, hline⟩
    obtain ⟨insertTransition, hthere⟩ := skipLine?_eq_jump_iff.mp hline
    obtain ⟨⟨haddr, hne, -, -⟩, hunshared⟩ := (hmark ..).mp hthere
    rw [haddr] at hne hunshared
    exact ⟨hne, ⟨i, hi, haddr, hend⟩, hunshared⟩
  · rintro ⟨hne, ⟨i, hi, haddr, hend⟩, hunshared⟩
    -- the range may give the name in any case, the label has it in upper case
    have hname : Unicode.toUpper name = Unicode.toUpper range.stop.script :=
      (toUpper_of_sameIgnoringCase hstop).symm
    refine ⟨i, hi, hend, skipLine?_eq_jump_iff.mpr ⟨range.start.insertTransition, ?_⟩⟩
    rw [haddr]
    exact (hmark ..).mpr ⟨⟨rfl, hne, rfl, hname⟩, hunshared⟩

/-- The label at the end of a range is set each time that a run comes there, if its mark counts
there. -/
theorem count_labels_eq_visits :
    (transpile name script profile).document.labels.count (.skipEnd (Unicode.toUpper name) index)
      = if Unshared profile.adultSkip (Unicode.toUpper name) index range.stop.addr
        then Bytecode.Placed.visits (Bytecode.decode profile.version true script) range.stop.addr
        else 0 := by
  have hmark : ∀ addr, ((scriptContext name script profile).skipLine? addr).bind Statement.label?
      = some (.skipEnd (Unicode.toUpper name) index) ↔
        addr = range.stop.addr ∧ Unshared profile.adultSkip (Unicode.toUpper name) index addr :=
    fun addr => skipLine?_bind_label?_eq_iff.trans
      (skipMark?_eq_stop_iff (c := scriptContext name script profile) henabled hrange hstart hstop)
  rw [count_skipEnd_labels hcomplete]
  split
  · next hunshared =>
    refine List.countP_congr fun i _ => ?_
    rw [Bool.and_eq_true, Bool.and_eq_true, beq_iff_eq, hmark, beq_iff_eq]
    refine and_congr_left fun _ => and_iff_left_of_imp fun haddr => ?_
    rw [haddr]
    exact hunshared
  · next hshared =>
    refine List.countP_eq_zero.mpr fun i _ hboth => ?_
    rw [Bool.and_eq_true, beq_iff_eq, hmark] at hboth
    obtain ⟨⟨haddr, hthere⟩, -⟩ := hboth
    rw [haddr] at hthere
    exact hshared hthere

end Ends

/-- The jump around a range and the label at its end, where both ends of the range are addresses
of instructions of the script. They go together, with one label, if the two ends are different,
none of them is the end of the script or has the mark of a later range, and no terminator is
missing before the second. -/
theorem transpile_skipEnds (name : String) (script : List UInt8) (profile : Profile)
    (hcomplete : (transpile name script profile).isComplete = true)
    (henabled : profile.adultSkip.enabled = true) {index : Nat} {range : SkipRange}
    (hrange : profile.adultSkip.ranges[index]? = some range)
    (hstart : sameIgnoringCase range.start.script (Unicode.toUpper name) = true)
    (hstop : sameIgnoringCase range.stop.script (Unicode.toUpper name) = true)
    (hfirst : ∃ i ∈ Bytecode.decode profile.version true script, i.addr = range.start.addr)
    (hlast : ∃ i ∈ Bytecode.decode profile.version true script, i.addr = range.stop.addr) :
    (.skipEnd (Unicode.toUpper name) index ∈ (transpile name script profile).document.jumps ↔
      range.start.addr ≠ range.stop.addr ∧ range.start.addr ≠ script.length ∧
        Unshared profile.adultSkip (Unicode.toUpper name) index range.start.addr) ∧
    (transpile name script profile).document.labels.count (.skipEnd (Unicode.toUpper name) index) =
      (if ¬Unshared profile.adultSkip (Unicode.toUpper name) index range.stop.addr ∨
          range.stop.addr = script.length then 0
        else if .marker range.stop.addr .notTerminated ∈ Bytecode.decode profile.version true script
        then 2 else 1) ∧
    ((.skipEnd (Unicode.toUpper name) index ∈ (transpile name script profile).document.jumps ∧
        (transpile name script profile).document.labels.count
          (.skipEnd (Unicode.toUpper name) index) = 1) ↔
      (range.start.addr ≠ range.stop.addr ∧ range.start.addr ≠ script.length ∧
        Unshared profile.adultSkip (Unicode.toUpper name) index range.start.addr) ∧
      Unshared profile.adultSkip (Unicode.toUpper name) index range.stop.addr ∧
        range.stop.addr ≠ script.length ∧
        .marker range.stop.addr .notTerminated ∉ Bytecode.decode profile.version true script) := by
  have hjump := mem_jumps_iff_start hcomplete henabled hrange hstart hstop hfirst
  have hlabel := count_labels_eq_visits hcomplete henabled hrange hstart hstop
  rw [(Bytecode.decode_placed profile.version true script).visits_eq hlast] at hlabel
  refine ⟨hjump, ?_, ?_⟩
  · rw [hlabel]
    by_cases hunshared : Unshared profile.adultSkip (Unicode.toUpper name) index range.stop.addr
    · rw [if_pos hunshared, if_congr (or_iff_right (not_not_intro hunshared)) rfl rfl]
    · rw [if_neg hunshared, if_pos (Or.inl hunshared)]
  · rw [hjump, hlabel]
    refine and_congr_right fun _ => ?_
    split
    · next hunshared =>
      rw [and_iff_right hunshared]
      split
      · next hend => simp [hend]
      · next hend =>
        rw [and_iff_right hend]
        split <;> simp [*]
    · next hshared => simp [hshared]

/-- Two pauses and the end of the script's own. -/
def twoPauses : List UInt8 :=
  [0x82, 100, 0, 0, 0x82, 200, 0, 0, 0x0a, 0]

/-- A profile with ranges of scenes to skip. -/
def withRanges (ranges : List SkipRange) : Profile :=
  { adultSkip := { enabled := true, ranges } }

/-- A range that starts where an earlier one does, and both end in different places. -/
def nestedRanges : Profile :=
  withRanges [⟨⟨"A", 0, false⟩, ⟨"a", 8, false⟩⟩, ⟨⟨"a", 0, false⟩, ⟨"a", 4, false⟩⟩]

/-- The later range has its jump and its label; of the earlier one there is the label only. -/
theorem skipEnds_of_nestedRanges :
    (.skipEnd "A" 1 ∈ (transpile "a" twoPauses nestedRanges).document.jumps ∧
      (transpile "a" twoPauses nestedRanges).document.labels.count (.skipEnd "A" 1) = 1) ∧
    .skipEnd "A" 0 ∉ (transpile "a" twoPauses nestedRanges).document.jumps ∧
      (transpile "a" twoPauses nestedRanges).document.labels.count (.skipEnd "A" 0) = 1 := by
  have hname : Unicode.toUpper "a" = "A" := by decide +kernel
  have hcomplete : (transpile "a" twoPauses nestedRanges).isComplete = true := by decide +kernel
  have hrange : nestedRanges.adultSkip.ranges[1]? = some ⟨⟨"a", 0, false⟩, ⟨"a", 4, false⟩⟩ := rfl
  have hrange' : nestedRanges.adultSkip.ranges[0]? = some ⟨⟨"A", 0, false⟩, ⟨"a", 8, false⟩⟩ := rfl
  have hlater := transpile_skipEnds "a" twoPauses nestedRanges hcomplete rfl hrange
    (by decide +kernel) (by decide +kernel) (by decide +kernel) (by decide +kernel)
  have hearlier := transpile_skipEnds "a" twoPauses nestedRanges hcomplete rfl hrange'
    (by decide +kernel) (by decide +kernel) (by decide +kernel) (by decide +kernel)
  rw [hname] at hlater hearlier
  refine ⟨hlater.2.2.mpr (by decide +kernel), fun hmem => ?_, ?_⟩
  · exact absurd (hearlier.1.mp hmem) (by decide +kernel)
  · rw [hearlier.2.1]
    decide +kernel

/-- Ranges side by side, a range up to the end of the script, and one up to a missing terminator. -/
theorem skipEnd_lost :
    ((Bytecode.decode .standard true twoPauses).map (·.addr) = [0, 4, 8, 10] ∧
      let profile :=
        withRanges [⟨⟨"a", 0, false⟩, ⟨"a", 4, false⟩⟩, ⟨⟨"a", 4, false⟩, ⟨"a", 8, false⟩⟩]
      (transpile "a" twoPauses profile).isComplete = true ∧
        (transpile "a" twoPauses profile).document.jumps = [.skipEnd "A" 0, .skipEnd "A" 1] ∧
        (transpile "a" twoPauses profile).document.labels = [.script "A", .skipEnd "A" 1]) ∧
    ((Bytecode.decode .standard true (twoPauses.take 8)).map (·.addr) = [0, 4, 8] ∧
      let profile := withRanges [⟨⟨"a", 0, false⟩, ⟨"a", 8, false⟩⟩]
      (transpile "a" (twoPauses.take 8) profile).isComplete = true ∧
        (transpile "a" (twoPauses.take 8) profile).document.jumps = [.skipEnd "A" 0] ∧
        (transpile "a" (twoPauses.take 8) profile).document.labels = [.script "A"]) ∧
    ((Bytecode.decode .standard true (twoPauses.eraseIdx 3)).map (·.addr) = [0, 3, 3, 7, 9] ∧
      let profile := withRanges [⟨⟨"a", 0, false⟩, ⟨"a", 3, false⟩⟩]
      (transpile "a" (twoPauses.eraseIdx 3) profile).isComplete = true ∧
        (transpile "a" (twoPauses.eraseIdx 3) profile).document.jumps = [.skipEnd "A" 0] ∧
        (transpile "a" (twoPauses.eraseIdx 3) profile).document.labels
          = [.script "A", .skipEnd "A" 0, .skipEnd "A" 0]) := by
  decide +kernel

end Rio
