import Rio.Proofs.BlockGraph.Jumps
import Rio.Proofs.Screenplay.ControlFlow
import Rio.Proofs.Screenplay.Reading
import Rio.Proofs.Screenplay.Written

/-!
# Labels and the jumps to them

A jump within a script is written as a jump to the label of its goal, and the label is set where
the goal is reached. A goal may lie ahead of the jump, behind it, at the jump itself or at the end
of the script; it may also lie in the middle of an instruction or beyond the end, and is then
never reached. `transpile_labels` says that in a complete screenplay

> the label of an address is set once if some jump leads to the address and an instruction or the
> end of the script is there, and it is not set otherwise.

Only two kinds of act matter here: reaching an address, which sets a label that is waited for, and
a jump, which makes the label of its goal waited for, also again. All others leave the `Marks` of
a state as they are. The invariant `Labelled` speaks of the labels that are waited for ahead of
the run only: these are the goals that have not been reached. What a jump back asks for again lies
behind and is never looked at.
-/

namespace Rio

/-- A jump within its script, to an address that is not negative. -/
def Instruction.JumpsTo (i : Instruction) (t : Nat) : Prop :=
  i.mnemonic = .jmpOffset ∧ i.int? 0 = some (t : Int)

instance (i : Instruction) (t : Nat) : Decidable (i.JumpsTo t) :=
  inferInstanceAs (Decidable (_ ∧ _))

/-- An address that some jump leads to. -/
def IsGoal (l : List Instruction) (t : Nat) : Prop :=
  ∃ i ∈ l, i.JumpsTo t

instance (l : List Instruction) (t : Nat) : Decidable (IsGoal l t) :=
  inferInstanceAs (Decidable (∃ i ∈ l, i.JumpsTo t))

/-! ## The jumps of a decoded script -/

/-- The operand of a decoded jump is its goal. -/
theorem goal?_eq_some_iff {i : Instruction} (hmet : ∀ need ∈ i.mnemonic.needs, need.Met i)
    (t : Nat) :
    i.goal? = some t ↔ i.JumpsTo t := by
  unfold Instruction.goal? Instruction.JumpsTo
  by_cases hjump : i.mnemonic = .jmpOffset
  · rw [hjump] at hmet
    obtain ⟨⟨n, hn, hlo, hhi⟩, -⟩ := List.forall_mem_cons.mp hmet
    rw [if_pos hjump, hn, Option.bind_some, addressOfInt?, and_iff_right hjump, Option.some.injEq]
    by_cases hrange : 0 ≤ n ∧ n < 0x100000000
    · rw [if_pos hrange, Option.some.injEq]
      omega
    · -- a number of 32 bits is out of range only if it is negative
      rw [if_neg hrange]
      constructor
      · intro h
        cases h
      · intro h
        omega
  · rw [if_neg hjump]
    constructor
    · intro h
      cases h
    · intro h
      exact absurd h.1 hjump

/-- A jump is read as a jump to its goal or not at all. -/
theorem Screenplay.ofInstruction_of_jmpOffset {i : Instruction} (h : i.mnemonic = .jmpOffset) :
    Reading.ofInstruction i = .ofOption (i.goal?.map Command.jump) := by
  rw [Reading.ofInstruction, Instruction.goal?, if_pos h, h]

/-- Nothing else is read as a jump. -/
theorem Screenplay.goal?_of_jump {i : Instruction} {t : Nat}
    (h : Reading.ofInstruction i = .command (.jump t)) : i.goal? = some t := by
  have hjump : i.mnemonic = .jmpOffset := by
    have hfrom := isFrom_of_command h
    generalize i.mnemonic = m at hfrom
    cases m with
    | jmpOffset => rfl
    | _ => cases hfrom
  rw [ofInstruction_of_jmpOffset hjump, ofOption_eq_command_iff, Option.map_eq_some_iff] at h
  obtain ⟨t', ht', heq⟩ := h
  rw [ht', Command.jump.inj heq]

end Rio

namespace Rio.Renpy

/-! ## Labels and jumps of a document -/

/-- The label of an address. -/
def Label.isAddress : Label → Bool
  | .address .. => true
  | _ => false

/-- The label that a statement sets. -/
def Statement.label? : Statement → Option Label
  | .label l => some l
  | _ => none

/-- The label that a statement jumps to. -/
def Statement.jump? : Statement → Option Label
  | .jump l => some l
  | _ => none

/-- Whether a statement sets the label of an address or jumps to one. -/
def Statement.namesAddress : Statement → Bool
  | .label l | .jump l => l.isAddress
  | _ => false

/-- The labels that a document sets. -/
def Document.labels (d : Document) : List Label :=
  d.statements.filterMap Statement.label?

/-- The labels that a document jumps to. -/
def Document.jumps (d : Document) : List Label :=
  d.statements.filterMap Statement.jump?

/-- Statements that name no address add no label of one, and no jump to one. -/
theorem filter_isAddress_eq_nil {f : Statement → Option Label} {added : List Statement}
    (hf : ∀ st l, f st = some l → l.isAddress = true → st.namesAddress = true)
    (h : ∀ st ∈ added, st.namesAddress = false) :
    (added.filterMap f).filter Label.isAddress = [] := by
  rw [List.filter_eq_nil_iff]
  intro l hl haddress
  obtain ⟨st, hst, hfst⟩ := List.mem_filterMap.mp hl
  have hnames := hf st l hfst haddress
  rw [h st hst] at hnames
  cases hnames

theorem Statement.namesAddress_of_label? {st : Statement} {l : Label} (h : st.label? = some l)
    (haddress : l.isAddress = true) : st.namesAddress = true := by
  cases st with
  | label l' =>
    obtain rfl := Option.some.inj h
    exact haddress
  | _ => cases h

theorem Statement.namesAddress_of_jump? {st : Statement} {l : Label} (h : st.jump? = some l)
    (haddress : l.isAddress = true) : st.namesAddress = true := by
  cases st with
  | jump l' =>
    obtain rfl := Option.some.inj h
    exact haddress
  | _ => cases h

end Rio.Renpy

namespace Rio.Screenplay

open Renpy (Document Label Statement)

/-! ## What a step does to labels -/

/-- The labels of addresses in a state: those that are set, those that are jumped to, and the
addresses that wait for theirs. -/
structure Marks where
  labels : List Label
  jumps : List Label
  pending : List Nat

namespace Marks

/-- An address is reached: its label is set if it is waited for. -/
def reach (m : Marks) (c : Context) (addr : Nat) : Marks :=
  if addr ∈ m.pending then
    { m with labels := m.labels ++ [c.label addr], pending := m.pending.filter (· != addr) }
  else m

/-- A jump: the label of its goal is waited for. -/
def jump (m : Marks) (c : Context) (target : Nat) : Marks :=
  { m with
    jumps := m.jumps ++ [c.label target]
    pending := if target ∈ m.pending then m.pending else target :: m.pending }

theorem mem_pending_reach {m : Marks} {c : Context} {addr t : Nat} :
    t ∈ (m.reach c addr).pending ↔ t ∈ m.pending ∧ t ≠ addr := by
  unfold reach
  by_cases haddr : addr ∈ m.pending
  · rw [if_pos haddr, List.mem_filter, bne_iff_ne]
  · rw [if_neg haddr]
    constructor
    · intro ht
      exact ⟨ht, fun h => haddr (h ▸ ht)⟩
    · intro ht
      exact ht.1

theorem mem_pending_jump {m : Marks} {c : Context} {target t : Nat} :
    t ∈ (m.jump c target).pending ↔ t ∈ m.pending ∨ t = target := by
  unfold jump
  dsimp only
  by_cases htarget : target ∈ m.pending
  · rw [if_pos htarget]
    constructor
    · intro ht
      exact Or.inl ht
    · rintro (ht | rfl)
      · exact ht
      · exact htarget
  · rw [if_neg htarget, List.mem_cons, or_comm]

end Marks

variable {c : Context} {s s' : State}

/-- The marks of a state. -/
def State.marks (s : State) : Marks :=
  ⟨s.document.labels.filter Label.isAddress, s.document.jumps.filter Label.isAddress,
    s.pendingLabels⟩

/-- Only statements that name an address change what is set and jumped to. -/
theorem filter_labels_of_statements {d d' : Document} {added : List Statement}
    (h : d'.statements = d.statements ++ added) (hadded : ∀ st ∈ added, st.namesAddress = false) :
    d'.labels.filter Label.isAddress = d.labels.filter Label.isAddress ∧
      d'.jumps.filter Label.isAddress = d.jumps.filter Label.isAddress := by
  unfold Document.labels Document.jumps
  rw [h, List.filterMap_append, List.filterMap_append, List.filter_append, List.filter_append,
    Renpy.filter_isAddress_eq_nil (fun _ _ => Statement.namesAddress_of_label?) hadded,
    Renpy.filter_isAddress_eq_nil (fun _ _ => Statement.namesAddress_of_jump?) hadded,
    List.append_nil, List.append_nil]
  exact ⟨rfl, rfl⟩

/-- Acts that write no statement with an address leave the marks as they are. -/
theorem Act.marks_eq (h : Act c (fun st => st.namesAddress = false) s s') : s'.marks = s.marks := by
  obtain ⟨added, heq, hadded⟩ := h.written
  obtain ⟨hlabels, hjumps⟩ := filter_labels_of_statements heq hadded
  have hpending : s'.pendingLabels = s.pendingLabels := by
    cases h with
    | ask hst => cases hst
    | place hst => cases hst
    | draw => rw [draw_eq]
    | _ => rfl
  unfold State.marks
  rw [hlabels, hjumps, hpending]

theorem Acts.marks_eq (h : Acts c (fun st => st.namesAddress = false) s s') :
    s'.marks = s.marks :=
  h.preserves (I := fun t => t.marks = s.marks) (fun hact ht => hact.marks_eq.trans ht) rfl

theorem marks_header_label (c : Context) (s : State) (addr : Nat) :
    (s.header (.label (c.label addr))).marks
      = { s.marks with labels := s.marks.labels ++ [c.label addr] } := by
  simp [State.marks, State.header, Document.labels, Document.jumps, Statement.label?,
    Statement.jump?, Context.label, Label.isAddress]

theorem marks_emit_jump (c : Context) (s : State) (target : Nat) :
    (s.emit (.jump (c.label target))).marks
      = { s.marks with jumps := s.marks.jumps ++ [c.label target] } := by
  simp [State.marks, State.emit, Document.labels, Document.jumps, Statement.label?,
    Statement.jump?, Context.label, Label.isAddress]

/-- Setting a label reaches its address. -/
theorem marks_placeLabel (c : Context) (s : State) (addr : Nat) :
    (s.placeLabel c addr).marks = s.marks.reach c addr := by
  have hclose : ∀ t : State, t.closeScope.marks = t.marks :=
    fun t => Act.marks_eq (c := c) (.close rfl)
  unfold State.placeLabel Marks.reach
  by_cases haddr : addr ∈ s.pendingLabels
  · have hpending : addr ∈ s.marks.pending := haddr
    rw [if_pos (List.contains_iff_mem.mpr haddr), if_pos hpending, marks_header_label, hclose]
    rfl
  · have hpending : addr ∉ s.marks.pending := haddr
    rw [if_neg (fun h => haddr (List.contains_iff_mem.mp h)), if_neg hpending]

theorem marks_jump (c : Context) (s : State) (target : Nat) :
    (jump c s target).marks = s.marks.jump c target := by
  have hmarks : (jump c s target).marks =
      { (s.emit (.jump (c.label target))).marks with
        pending :=
          if s.pendingLabels.contains target then s.pendingLabels
          else target :: s.pendingLabels } := rfl
  rw [hmarks, marks_emit_jump, Marks.jump]
  simp only [List.contains_iff_mem]
  rfl

/-- The command of no instruction but a jump names an address. -/
theorem namesAddress_of_writes {command : Command} (h : ∀ t, command ≠ .jump t) {st : Statement}
    (hwrites : command.writes st = true) : st.namesAddress = false := by
  cases st with
  | label l => cases command <;> cases hwrites
  | jump l =>
    cases l with
    | address name t =>
      cases command with
      | jump t' => exact absurd rfl (h t')
      | _ => cases hwrites
    | script name => rfl
    | skipEnd name index => rfl
  | _ => rfl

theorem namesAddress_of_isSkipLine {st : Statement} (h : isSkipLine st = true) :
    st.namesAddress = false := by
  cases st with
  | label l | jump l =>
    cases l with
    | address name t => cases h
    | script name | skipEnd name index => rfl
  | _ => rfl

/-- Ranges of scenes and the ends of branches have nothing to do with addresses. -/
theorem marks_closeBranches_placeSkipMark (s : State) (addr : Nat) :
    ((s.placeSkipMark c addr).closeBranches addr).marks = s.marks := by
  have hacts : Acts c (fun st => st.namesAddress = false) s
      ((s.placeSkipMark c addr).closeBranches addr) :=
    (placeSkipMark_acts (fun _ _ => namesAddress_of_isSkipLine) _).trans
      (closeBranches_acts (P := fun st => st.namesAddress = false) rfl _)
  exact hacts.marks_eq

/-- On its way to an instruction a run reaches its address. -/
theorem marks_arrive (s : State) (i : Instruction) (rest : List Instruction) :
    (s.arrive c i rest).marks = s.marks.reach c i.addr := by
  have hheld : (s.arrive c i rest).marks
      = (((s.placeSkipMark c i.addr).closeBranches i.addr).placeLabel c i.addr).marks := by
    unfold State.arrive
    dsimp only
    split <;> rfl
  rw [hheld, marks_placeLabel, marks_closeBranches_placeSkipMark]

/-- A step reaches the address of its instruction, and jumps if the instruction does. -/
theorem marks_step {i : Instruction} {rest : List Instruction} (h : step c s i rest = .ok s') :
    (∃ t, i.goal? = some t ∧ s'.marks = (s.marks.reach c i.addr).jump c t) ∨
      i.mnemonic ≠ .jmpOffset ∧ s'.marks = s.marks.reach c i.addr := by
  cases stepped_of_ok h with
  | ending hend =>
    have hclose : Acts c (fun st => st.namesAddress = false) s (s.closeBranches i.addr) :=
      closeBranches_acts (P := fun st => st.namesAddress = false) rfl _
    exact .inr ⟨by rw [hend]; decide, by rw [marks_placeLabel, hclose.marks_eq]⟩
  | unhandled hend hread =>
    refine .inr ⟨fun hjump => ?_, ?_⟩
    · rw [ofInstruction_of_jmpOffset hjump] at hread
      cases hgoal : i.goal? <;> rw [hgoal] at hread <;> cases hread
    · rw [Act.marks_eq (c := c) (.remark _), marks_arrive]
  | @command command _ hend hread hexec =>
    have hannounce := (announce_acts (c := c) (s := s.arrive c i rest)
      (P := fun st => st.namesAddress = false) i).marks_eq
    by_cases hjump : ∃ t, command = .jump t
    · obtain ⟨t, rfl⟩ := hjump
      obtain rfl := Except.ok.inj hexec
      refine .inl ⟨t, goal?_of_jump hread, ?_⟩
      rw [marks_jump, hannounce, marks_arrive]
    · have hacts := execute_acts (P := fun st => st.namesAddress = false)
        (fun st => namesAddress_of_writes (fun t ht => hjump ⟨t, ht⟩)) (fun _ _ _ => rfl) hexec
      refine .inr ⟨fun hmnemonic => ?_, by rw [hacts.marks_eq, hannounce, marks_arrive]⟩
      rw [ofInstruction_of_jmpOffset hmnemonic, ofOption_eq_command_iff,
        Option.map_eq_some_iff] at hread
      obtain ⟨t, -, rfl⟩ := hread
      exact hjump ⟨t, rfl⟩

/-! ## Labels along a run -/

/-- After the instructions `before`: each goal among their addresses has its label, each jump
among them has a goal and was written, and of the addresses ahead those wait for a label that are
goals and were not reached. -/
structure Labelled (c : Context) (before : List Instruction) (s : State) : Prop where
  labels : ∀ name t, s.marks.labels.count (.address name t) =
    if name = c.name ∧ IsGoal c.instructions t ∧ ∃ i ∈ before, i.addr = t then 1 else 0
  formed : ∀ i ∈ before, i.mnemonic = .jmpOffset → ∃ t, i.JumpsTo t
  jumps : ∀ label, label ∈ s.marks.jumps ↔ ∃ i ∈ before, ∃ t, i.JumpsTo t ∧ label = c.label t
  pending : ∀ t, (∀ i ∈ before, i.next ≤ t) →
    (t ∈ s.marks.pending ↔ IsGoal c.instructions t ∧ ∀ i ∈ before, i.addr ≠ t)

variable {before rest : List Instruction} {i : Instruction}

/-- At the start nothing is set, and all goals wait. -/
theorem labelled_start (hgoals : ∀ t, t ∈ (start c).pendingLabels ↔ IsGoal c.instructions t) :
    Labelled c [] (start c) := by
  have hlabels : (start c).marks.labels = [] := rfl
  have hjumps : (start c).marks.jumps = [] := rfl
  refine ⟨fun name t => ?_, fun i hi => (by cases hi), fun label => ?_, fun t _ => ?_⟩
  · rw [hlabels]
    simp
  · rw [hjumps]
    simp
  · have hpending : (start c).marks.pending = (start c).pendingLabels := rfl
    rw [hpending, hgoals]
    simp

/-- Reaching the next address sets its label if it is a goal that was not reached before. -/
theorem Labelled.count_reach (h : Labelled c before s) (hahead : ∀ j ∈ before, j.next ≤ i.addr)
    (name : String) (t : Nat) :
    (s.marks.reach c i.addr).labels.count (.address name t) =
      if name = c.name ∧ IsGoal c.instructions t ∧ ∃ j ∈ before ++ [i], j.addr = t
      then 1 else 0 := by
  have hpending := h.pending i.addr hahead
  have hseen : (∃ j ∈ before ++ [i], j.addr = t) ↔ (∃ j ∈ before, j.addr = t) ∨ i.addr = t := by
    simp [or_and_right, exists_or]
  rw [if_congr (and_congr_right fun _ => and_congr_right fun _ => hseen) rfl rfl]
  unfold Marks.reach
  by_cases hwaits : i.addr ∈ s.marks.pending
  · -- the address is a goal, and none of those before has it
    obtain ⟨hgoal, hfresh⟩ := hpending.mp hwaits
    rw [if_pos hwaits, List.count_append, h.labels, List.count_singleton]
    by_cases hhere : name = c.name ∧ i.addr = t
    · obtain ⟨rfl, rfl⟩ := hhere
      have hnone : ¬∃ j ∈ before, j.addr = i.addr := fun ⟨j, hj, heq⟩ => hfresh j hj heq
      simp [hnone, hgoal, Context.label]
    -- the label that is set is another one, so the count is as it was
    · have hother : (c.label i.addr == Label.address name t) = false := by
        rw [beq_eq_false_iff_ne]
        intro heq
        obtain ⟨hname, haddr⟩ := Label.address.inj heq
        exact hhere ⟨hname.symm, haddr⟩
      rw [hother]
      have hiff : (name = c.name ∧ IsGoal c.instructions t ∧
          ((∃ j ∈ before, j.addr = t) ∨ i.addr = t)) ↔
          name = c.name ∧ IsGoal c.instructions t ∧ ∃ j ∈ before, j.addr = t := by
        constructor
        · rintro ⟨hname, hgoal', hold | hnew⟩
          · exact ⟨hname, hgoal', hold⟩
          · exact absurd ⟨hname, hnew⟩ hhere
        · rintro ⟨hname, hgoal', hold⟩
          exact ⟨hname, hgoal', Or.inl hold⟩
      rw [if_congr hiff rfl rfl]
      simp
  · rw [if_neg hwaits, h.labels]
    refine if_congr ?_ rfl rfl
    constructor
    · rintro ⟨hname, hgoal, hold⟩
      exact ⟨hname, hgoal, Or.inl hold⟩
    · rintro ⟨hname, hgoal, hold | rfl⟩
      · exact ⟨hname, hgoal, hold⟩
      · -- a goal that does not wait was reached before
        refine ⟨hname, hgoal, ?_⟩
        by_contra hnone
        exact hwaits (hpending.mpr ⟨hgoal, fun j hj heq => hnone ⟨j, hj, heq⟩⟩)

/-- Ahead of the next instruction the goals wait that do before it, other than its own address. -/
theorem Labelled.pending_reach (h : Labelled c before s) {t : Nat}
    (hahead : ∀ j ∈ before ++ [i], j.next ≤ t) :
    t ∈ (s.marks.reach c i.addr).pending ↔
      IsGoal c.instructions t ∧ ∀ j ∈ before ++ [i], j.addr ≠ t := by
  rw [Marks.mem_pending_reach, h.pending t fun j hj => hahead j (List.mem_append_left _ hj)]
  constructor
  · rintro ⟨⟨hgoal, hbefore⟩, hne⟩
    refine ⟨hgoal, fun j hj => ?_⟩
    rcases List.mem_append.mp hj with hj | hj
    · exact hbefore j hj
    · rw [List.mem_singleton.mp hj]
      exact hne.symm
  · rintro ⟨hgoal, hall⟩
    exact ⟨⟨hgoal, fun j hj => hall j (List.mem_append_left _ hj)⟩,
      (hall i (List.mem_append_right _ (List.mem_singleton.mpr rfl))).symm⟩

theorem Labelled.step {stop : Nat} (hl : Bytecode.Placed stop 0 c.instructions)
    (hmet : ∀ i ∈ c.instructions, ∀ need ∈ i.mnemonic.needs, need.Met i)
    (hsplit : before ++ i :: rest = c.instructions) (h : Labelled c before s)
    (hstep : step c s i rest = .ok s') : Labelled c (before ++ [i]) s' := by
  have hi : i ∈ c.instructions := hsplit ▸ List.mem_append_right _ (List.mem_cons_self ..)
  have hahead : ∀ j ∈ before, j.next ≤ i.addr := by
    have hpair := hl.pairwise
    rw [← hsplit, List.pairwise_append] at hpair
    exact fun j hj => hpair.2.2 j hj i (List.mem_cons_self ..)
  have hjumps : ∀ label, (∃ j ∈ before ++ [i], ∃ t, j.JumpsTo t ∧ label = c.label t) ↔
      label ∈ s.marks.jumps ∨ ∃ t, i.JumpsTo t ∧ label = c.label t := by
    intro label
    rw [h.jumps]
    simp [or_and_right, exists_or]
  have hreach : (s.marks.reach c i.addr).jumps = s.marks.jumps := by
    unfold Marks.reach
    split <;> rfl
  have hformed : (i.mnemonic = .jmpOffset → ∃ t, i.JumpsTo t) →
      ∀ j ∈ before ++ [i], j.mnemonic = .jmpOffset → ∃ t, j.JumpsTo t := by
    intro hnew j hj
    rcases List.mem_append.mp hj with hj | hj
    · exact h.formed j hj
    · rw [List.mem_singleton.mp hj]
      exact hnew
  rcases marks_step hstep with ⟨target, hgoal, hmarks⟩ | ⟨hother, hmarks⟩
  · have htarget := (goal?_eq_some_iff (hmet i hi) target).mp hgoal
    have hpos : 0 < i.len := by
      apply hl.len_pos i hi
      constructor <;> rw [htarget.1] <;> decide
    constructor
    · intro name t
      rw [hmarks]
      exact h.count_reach hahead name t
    · exact hformed fun _ => ⟨target, htarget⟩
    · intro label
      rw [hmarks, hjumps, Marks.jump, List.mem_append, hreach, List.mem_singleton]
      refine or_congr_right ⟨fun heq => ⟨target, htarget, heq⟩, ?_⟩
      rintro ⟨t, ht, rfl⟩
      rw [Int.ofNat.inj (Option.some.inj (ht.2.symm.trans htarget.2))]
    · intro t ht
      rw [hmarks, Marks.mem_pending_jump, h.pending_reach ht, or_iff_left_iff_imp]
      rintro rfl
      refine ⟨⟨i, hi, htarget⟩, fun j hj heq => ?_⟩
      -- ahead of the jump no address was reached, not even its own
      have hnext := ht i (List.mem_append_right _ (List.mem_singleton.mpr rfl))
      rcases List.mem_append.mp hj with hj | hj
      · have hle := hahead j hj
        unfold Instruction.next at hnext hle
        omega
      · rw [List.mem_singleton.mp hj] at heq
        unfold Instruction.next at hnext
        omega
  · constructor
    · intro name t
      rw [hmarks]
      exact h.count_reach hahead name t
    · exact hformed fun hjump => absurd hjump hother
    · intro label
      rw [hmarks, hjumps, hreach]
      refine (or_iff_left ?_).symm
      rintro ⟨t, ht, -⟩
      exact hother ht.1
    · intro t ht
      rw [hmarks]
      exact h.pending_reach ht

end Rio.Screenplay

namespace Rio

open Screenplay
open Renpy (Label)

/-- The graph has found the goals of all jumps before the run starts. -/
theorem labelled_scriptStart (name : String) (script : List UInt8) (profile : Profile) :
    Labelled (scriptContext name script profile) []
      (start (scriptContext name script profile)) := by
  refine labelled_start fun t => ?_
  have hmet := Bytecode.decode_meets profile.version script
  refine (BlockGraph.mem_trueTargets_iff
    (Bytecode.decode_placed profile.version true script) t).trans ?_
  refine exists_congr fun i => and_congr_right fun hi => ?_
  exact flow?_eq_jump_iff.trans (goal?_eq_some_iff (hmet i hi) t)

theorem labelled_of_run {name : String} {script : List UInt8} {profile : Profile} {s : State}
    (hrun : scriptRun name script profile = .ok s) :
    Labelled (scriptContext name script profile)
      (Bytecode.decode profile.version true script) s := by
  have hmet := Bytecode.decode_meets profile.version script
  have hplaced := Bytecode.decode_placed profile.version true script
  exact (runFrom_induction (I := Labelled (scriptContext name script profile))
    (fun _ _ _ _ _ hsplit h hstep => h.step hplaced hmet hsplit hstep)
    _ [] _ 0 rfl (labelled_scriptStart name script profile)).1 s hrun

/-- In a complete screenplay the label of an address is set once if some jump leads there and an
instruction or the end of the script is there, and is not set otherwise. The jumps to labels of
addresses are those of the script, so a jump to the address of an instruction finds exactly one
label. -/
theorem transpile_labels (name : String) (script : List UInt8) (profile : Profile)
    (hcomplete : (transpile name script profile).isComplete = true) :
    (∀ name' t, (transpile name script profile).document.labels.count (.address name' t) =
        if name' = Unicode.toUpper name ∧
            IsGoal (Bytecode.decode profile.version true script) t ∧
            ∃ i ∈ Bytecode.decode profile.version true script, i.addr = t
        then 1 else 0) ∧
      (∀ i ∈ Bytecode.decode profile.version true script, i.mnemonic = .jmpOffset →
        ∃ t, i.JumpsTo t ∧
          .address (Unicode.toUpper name) t ∈ (transpile name script profile).document.jumps) ∧
      ∀ name' t, .address name' t ∈ (transpile name script profile).document.jumps →
        name' = Unicode.toUpper name ∧ IsGoal (Bytecode.decode profile.version true script) t ∧
          ((∃ i ∈ Bytecode.decode profile.version true script, i.addr = t) →
            (transpile name script profile).document.labels.count (.address name' t) = 1) := by
  cases hrun : scriptRun name script profile with
  | error stopped =>
    obtain ⟨index, halt⟩ := stopped
    rw [Screenplay.isComplete, (transpile_of_error hrun).1] at hcomplete
    cases hcomplete
  | ok s =>
    have h := labelled_of_run hrun
    -- the blocks that are still open add no labels
    obtain ⟨n, hclose⟩ := s.document.statements_closeAll
    obtain ⟨hlabels, hjumps⟩ := filter_labels_of_statements hclose fun st hst => by
      rw [List.eq_of_mem_replicate hst]
      rfl
    rw [(transpile_of_ok hrun).2]
    have hcount : ∀ name' t, s.document.closeAll.labels.count (.address name' t) =
        if name' = Unicode.toUpper name ∧
            IsGoal (Bytecode.decode profile.version true script) t ∧
            ∃ i ∈ Bytecode.decode profile.version true script, i.addr = t
        then 1 else 0 := by
      intro name' t
      rw [← List.count_filter (p := Label.isAddress) rfl, hlabels]
      exact h.labels name' t
    have hjump : ∀ name' t, .address name' t ∈ s.document.closeAll.jumps ↔
        ∃ i ∈ Bytecode.decode profile.version true script, ∃ t', i.JumpsTo t' ∧
          Label.address name' t = .address (Unicode.toUpper name) t' := by
      intro name' t
      have hfilter : Label.address name' t ∈ s.document.closeAll.jumps.filter Label.isAddress ↔
          Label.address name' t ∈ s.document.closeAll.jumps := by
        rw [List.mem_filter]
        exact and_iff_left rfl
      rw [← hfilter, hjumps]
      exact h.jumps _
    refine ⟨hcount, ?_, ?_⟩
    · intro i hi hm
      obtain ⟨t, ht⟩ := h.formed i hi hm
      exact ⟨t, ht, (hjump _ t).mpr ⟨i, hi, t, ht, rfl⟩⟩
    · intro name' t hmem
      obtain ⟨i, hi, t', ht, heq⟩ := (hjump name' t).mp hmem
      obtain ⟨rfl, rfl⟩ := Label.address.inj heq
      have hgoal : IsGoal (Bytecode.decode profile.version true script) t := ⟨i, hi, ht⟩
      refine ⟨rfl, hgoal, fun hplace => ?_⟩
      rw [hcount, if_pos ⟨rfl, hgoal, hplace⟩]

/-- A jump to itself, one back to the first, and jumps to the end of the script, into the middle
of an instruction and beyond the end. -/
def jumpsAround : List UInt8 :=
  [0x06, 0, 0, 0, 0, 0, 0x06, 0, 0, 0, 0, 0, 0x06, 30, 0, 0, 0, 0, 0x06, 7, 0, 0, 0, 0,
   0x06, 99, 0, 0, 0, 0]

/-- Its start and its end have a label each, the other two goals have none. -/
theorem labels_of_jumpsAround :
    (transpile "a" jumpsAround {}).isComplete = true ∧
      (transpile "a" jumpsAround {}).document.labels.count (.address "A" 0) = 1 ∧
      (transpile "a" jumpsAround {}).document.labels.count (.address "A" 30) = 1 ∧
      (transpile "a" jumpsAround {}).document.labels.count (.address "A" 7) = 0 ∧
      (transpile "a" jumpsAround {}).document.labels.count (.address "A" 99) = 0 := by
  have hcomplete : (transpile "a" jumpsAround {}).isComplete = true := by
    decide +kernel
  obtain ⟨hcount, -, -⟩ := transpile_labels "a" jumpsAround {} hcomplete
  refine ⟨hcomplete, ?_, ?_, ?_, ?_⟩ <;> rw [hcount] <;> decide +kernel

end Rio
