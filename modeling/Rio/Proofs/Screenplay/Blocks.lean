import Rio.Proofs.Renpy.Indentation
import Rio.Proofs.Screenplay.Written

/-!
# Blocks along a run

A run keeps two stacks: the blocks of the document that are open, and the addresses where the open
branches close. Between two instructions they go together, with one block more, that of the last
label (`State.Aligned`):

* a command other than a branch stays in the block it finds (`execute_within`);
* a branch opens one block and remembers one address;
* where branches end, as many blocks close as addresses are forgotten;
* a label closes a block and opens one in its place.

So no step closes a block that is not open, a complete document has no open block, and, whether
the run gets through or halts, the document is well indented (`ofInstructions_wellIndented`). The
texts that a profile adds to calls are taken for statements without a block.
-/

namespace Rio.Screenplay

open Renpy (Document Remark Row Statement)

variable {c : Context} {P : Statement → Prop} {s s' t : State} {st : Statement}

/-- What is reported where a block is closed and none is open. -/
def unopened : Record :=
  ⟨.warn, "closing a scope at depth 0"⟩

/-- An open block closes without a report. -/
theorem records_closeScope (h : 0 < s.document.depth) : s.closeScope.records = s.records := by
  have hscopes : s.document.scopes.isEmpty = false := by
    rw [List.isEmpty_eq_false_iff]
    exact List.ne_nil_of_length_pos h
  show s.records ++ s.document.editRecords .closeScope = s.records
  simp [Document.editRecords, hscopes]

/-! ## Staying in a block -/

/-- What was done belongs to the block that was open, and it is still open. -/
structure State.Within (s s' : State) : Prop where
  document : s.document.Within s'.document
  ends : s'.scopeEnds = s.scopeEnds
  records : unopened ∈ s'.records → unopened ∈ s.records

namespace State.Within

theorem refl (s : State) : s.Within s :=
  ⟨.refl _, rfl, id⟩

theorem trans (h : s.Within t) (h' : t.Within s') : s.Within s' :=
  ⟨h.document.trans h'.document, h'.ends.trans h.ends, fun hmem => h.records (h'.records hmem)⟩

theorem emit (h : s.Within t) (hst : st.isHeader = false) : s.Within (t.emit st) :=
  h.trans ⟨.statement _ hst, rfl, id⟩

theorem remark (h : s.Within t) (r : Remark) : s.Within (t.remark r) :=
  h.trans ⟨.comment _ r, rfl, id⟩

/-- Reports of other severities are other reports. -/
theorem report (h : s.Within t) {severity : Severity} (hne : severity ≠ .warn) (message : String) :
    s.Within (t.report severity message) := by
  refine h.trans ⟨.refl _, rfl, fun hmem => ?_⟩
  rcases Array.mem_push.mp hmem with hmem | heq
  · exact hmem
  · exact absurd (congrArg Record.severity heq).symm hne

/-- A header, what is done in its block, and the end of the block. -/
theorem block (hst : st.isHeader = true) (h : (s.header st).Within t) : s.Within t.closeScope := by
  have hdepth : 0 < t.document.depth := by
    have hopen : (s.header st).document.depth = s.document.depth + 1 := s.document.depth_header st
    rw [h.document.depth_eq, hopen]
    exact Nat.succ_pos _
  exact ⟨.block hst h.document, h.ends, records_closeScope hdepth ▸ h.records⟩

theorem foldl {α : Type} {f : State → α → State} {xs : List α}
    (hf : ∀ (t : State) x, t.Within (f t x)) (h : s.Within t) : s.Within (xs.foldl f t) := by
  induction xs generalizing t with
  | nil => exact h
  | cons x xs ih => exact ih (h.trans (hf t x))

end State.Within

/-- Acts that may not write `pass` open and close no blocks. -/
theorem Act.within (hpass : ¬P .pass) (h : Act c P s s') : s.Within s' := by
  cases h with
  | emit _ hflat => exact (State.Within.refl s).emit hflat
  | header _ hp | close hp | place _ hp | scope _ hp => exact absurd hp hpass
  | remark r => exact (State.Within.refl s).remark r
  | report message => exact (State.Within.refl s).report (by decide) message
  | ask _ => exact ⟨.statement _ rfl, rfl, id⟩
  | draw _ =>
    rw [draw_eq]
    exact ⟨.cues _ _, rfl, id⟩
  | remember | hold | release | stage | standIn => exact ⟨.refl _, rfl, id⟩

/-- Acts that may not write `pass` open and close no block. -/
theorem Acts.within (hpass : ¬P .pass) (h : Acts c P s s') : s.Within s' :=
  h.preserves (I := s.Within) (fun hact ht => ht.trans (hact.within hpass)) (.refl s)

/-! ## Commands -/

theorem screenEffect_within (s : State) (kind duration magnitude : Int) :
    s.Within (screenEffect s kind duration magnitude) := by
  unfold screenEffect
  split
  · exact (State.Within.refl s).emit rfl
  · split
    · split
      · have hheader : (Statement.showMaster true).isHeader = true := rfl
        exact .block hheader ((State.Within.refl _).emit rfl)
      · exact (State.Within.refl s).emit rfl
    · exact (State.Within.refl s).remark _

/-- A choice is a block with the jump that it leads to. -/
theorem offer_within (c : Context) (s : State) (o : MenuOption) (found : FlagAccess) :
    s.Within (offer c s o found) := by
  have hshown : ∀ (t : State) condition, s.Within t → s.Within (((t.header
      (.choice (c.dialogue o.text) condition)).emit
      (.jump (.script (c.scriptName o.target)))).closeScope) := by
    intro t condition ht
    have hheader : (Statement.choice (c.dialogue o.text) condition).isHeader = true := rfl
    exact ht.trans (.block hheader ((State.Within.refl _).emit rfl))
  cases found with
  | granted reference => exact hshown s _ (.refl s)
  | excluded => exact hshown _ _ ((State.Within.refl s).remark _)
  | hinted reference => exact hshown _ _ (((State.Within.refl s).remark _).remark _)
  | unmapped => exact hshown _ _ (((State.Within.refl s).remark _).remark _)

/-- A menu is a block with the line that waited for it and the choices. -/
theorem menu_within {choices : List MenuOption} (h : menu c s choices = .ok s') : s.Within s' := by
  have hheader : Statement.menu.isHeader = true := rfl
  have hrest : ∀ t : State, (s.header .menu).Within t →
      s.Within (choices.foldl (choice c) t).closeScope :=
    fun t ht => .block hheader (ht.foldl fun t o => offer_within c t o _)
  unfold menu at h
  dsimp only at h
  split at h
  · next i _ _ =>
    cases hspeak : speak c { s.header .menu with held := none } i with
    | error halt =>
      rw [hspeak] at h
      cases h
    | ok t =>
      rw [hspeak] at h
      obtain rfl := Except.ok.inj h
      have hacts : Acts c (· ≠ .pass) { s.header .menu with held := none } t :=
        speak_acts (fun _ hpass => (by cases hpass)) hspeak
      have hreleased : (s.header .menu).Within { s.header .menu with held := none } :=
        ⟨.refl _, rfl, id⟩
      exact hrest t (hreleased.trans (hacts.within fun hne => hne rfl))
  · obtain rfl := Except.ok.inj h
    exact hrest _ (.refl _)

/-- Commands other than branches stay in the block they find. -/
theorem execute_within {i : Instruction} {rest : List Instruction} {command : Command}
    (hbranch : ∀ b, command ≠ .branch b) (h : execute c i rest s command = .ok s') :
    s.Within s' := by
  by_cases hpass : command.writes .pass = true
  · -- the commands with blocks of their own
    cases command with
    | branch b => exact absurd rfl (hbranch b)
    | menu choices => exact menu_within h
    | screenEffect kind duration magnitude =>
      obtain rfl := Except.ok.inj h
      exact screenEffect_within ..
    | _ => cases hpass
  · have hacts : Acts c (· ≠ .pass) s s' :=
      execute_acts (fun st hst heq => hpass (heq ▸ hst)) (fun _ _ _ heq => (by cases heq)) h
    exact hacts.within fun hne => hne rfl

/-- The header of a branch. -/
def Branch.Heads (b : Branch) (st : Statement) : Prop :=
  st = .ifFalse ∨ ∃ reference, st = .ifFlag reference b.cmp b.value

theorem Branch.Heads.isHeader {b : Branch} (h : b.Heads st) : st.isHeader = true := by
  rcases h with rfl | ⟨reference, rfl⟩ <;> rfl

/-- A branch writes its header and remembers where its block ends. -/
theorem branch_eq (c : Context) (s : State) (b : Branch) :
    ∃ t st, s.Within t ∧ t.document.rows = s.document.rows ∧ b.Heads st ∧
      branch c s b = { t.header st with scopeEnds := b.close :: s.scopeEnds } := by
  have hrefl := State.Within.refl s
  unfold branch
  cases flagAccess c.profile b.flag with
  | granted reference => exact ⟨s, _, hrefl, rfl, .inr ⟨reference, rfl⟩, rfl⟩
  | excluded => exact ⟨_, _, hrefl.remark _, Document.rows_comment .., .inl rfl, rfl⟩
  | hinted reference =>
    refine ⟨_, _, (hrefl.remark _).remark _, ?_, .inl rfl, rfl⟩
    exact (Document.rows_comment ..).trans (Document.rows_comment ..)
  | unmapped =>
    refine ⟨_, _, (hrefl.remark _).remark _, ?_, .inl rfl, rfl⟩
    exact (Document.rows_comment ..).trans (Document.rows_comment ..)

/-- The state that a step ends in, or halts in. -/
def outcome : Step → State
  | .ok s => s
  | .error halt => halt.state

/-- What a step comes to, whether it halts or not. -/
inductive StepEnds (c : Context) (s : State) (i : Instruction) (rest : List Instruction) :
    State → Prop where
  | ending : i.mnemonic = .endOfStream →
      StepEnds c s i rest ((s.closeBranches i.addr).placeLabel c i.addr)
  | unhandled : i.mnemonic ≠ .endOfStream → Reading.ofInstruction i = .unhandled →
      StepEnds c s i rest ((s.arrive c i rest).remark
        (.unhandled (i.listing c.profile.charset c.profile.readers)))
  | malformed : i.mnemonic ≠ .endOfStream → Reading.ofInstruction i = .malformed →
      StepEnds c s i rest (announce c (s.arrive c i rest) i)
  | command {command : Command} : i.mnemonic ≠ .endOfStream →
      Reading.ofInstruction i = .command command →
      StepEnds c s i rest (outcome (execute c i rest (announce c (s.arrive c i rest) i) command))

/-- By cases on how the instruction is read. -/
theorem stepEnds_outcome (c : Context) (s : State) (i : Instruction) (rest : List Instruction) :
    StepEnds c s i rest (outcome (step c s i rest)) := by
  by_cases hend : i.mnemonic = .endOfStream
  · rw [step, if_pos (by simp [hend])]
    exact .ending hend
  · rw [step_of_ne_end hend, dispatch]
    cases hread : Reading.ofInstruction i with
    | unhandled => exact .unhandled hend hread
    | malformed => exact .malformed hend hread
    | command command => exact .command hend hread

/-- A command stays in the block it finds, whether it halts or not, unless it ends in a header:
that of a branch, or of a menu that is cut short. -/
theorem within_or_header (c : Context) (i : Instruction) (rest : List Instruction) (s : State)
    (command : Command) :
    s.document.Within (outcome (execute c i rest s command)).document ∨
      ∃ d st, s.document.Within d ∧
        (outcome (execute c i rest s command)).document = d.header st := by
  cases hexec : execute c i rest s command with
  | ok s' =>
    show s.document.Within s'.document ∨ ∃ d st, s.document.Within d ∧ s'.document = d.header st
    by_cases hbranch : ∃ b, command = .branch b
    · obtain ⟨b, rfl⟩ := hbranch
      obtain rfl := Except.ok.inj hexec
      obtain ⟨t, st, hwithin, -, -, heq⟩ := branch_eq c s b
      exact .inr ⟨t.document, st, hwithin.document, congrArg State.document heq⟩
    · exact .inl (execute_within (fun b hb => hbranch ⟨b, hb⟩) hexec).document
  | error halt =>
    show s.document.Within halt.state.document ∨ ∃ d st, s.document.Within d ∧
        halt.state.document = d.header st
    have hhalted := halted_of_error hexec
    generalize halt.state = t at hhalted ⊢
    cases hhalted with
    | stage g => exact .inl (.refl _)
    | menu => exact .inr ⟨s.document, .menu, .refl _, rfl⟩
    | drawn =>
      rw [draw_eq]
      exact .inl (.cues _ _)

/-- A command adds to the block it finds, whether it halts or not. -/
theorem addsWithin_execute (c : Context) (i : Instruction) (rest : List Instruction) (s : State)
    (command : Command) :
    s.document.AddsWithin (outcome (execute c i rest s command)).document := by
  rcases within_or_header c i rest s command with hwithin | ⟨d, st, hwithin, heq⟩
  · exact hwithin.adds
  · have hheader : d.AddsWithin (d.header st) := .of_statement (.of_rows_eq rfl)
    rw [heq]
    exact hwithin.adds.trans hwithin.depth_eq hheader

/-- So do the lines it writes. -/
theorem writesWithin_execute (c : Context) (i : Instruction) (rest : List Instruction) (s : State)
    (command : Command) :
    s.document.WritesWithin (outcome (execute c i rest s command)).document := by
  rcases within_or_header c i rest s command with hwithin | ⟨d, st, hwithin, heq⟩
  · exact hwithin.writes
  · rw [heq]
    exact hwithin.writes.trans hwithin.depth_eq (.header d st)

/-! ## The lines around ranges of scenes -/

/-- The way around a range of scenes is a block of its own. -/
theorem placeSkipMark_within {addr : Nat} (h : ∀ index, c.skipMark? addr ≠ some (.stop index)) :
    s.Within (s.placeSkipMark c addr) := by
  unfold State.placeSkipMark
  split
  · exact .refl s
  · next index insertTransition stopScript _ =>
    have hheader : (Statement.ifNotPersistent c.profile.adultSkip.variableName).isHeader
        = true := rfl
    refine ((State.Within.refl s).remark (.skipStart index)).trans
      (.block hheader (State.Within.emit ?_ rfl))
    split
    · exact ((State.Within.refl _).emit rfl).emit rfl
    · exact .refl _
  · next index hstop => exact absurd hstop (h index)

/-- The end of a range of scenes is a label. -/
theorem placeSkipMark_of_stop {addr index : Nat} (h : c.skipMark? addr = some (.stop index)) :
    s.placeSkipMark c addr
      = (s.closeScope.remark (.skipEnd index)).header (.label (.skipEnd c.name index)) := by
  unfold State.placeSkipMark
  rw [h]

/-! ## Blocks and branches -/

/-- Between instructions there is an open block for the last label and one for each open branch. -/
structure State.Aligned (s : State) : Prop where
  indented : s.document.Indented
  depth_eq : s.document.depth = 1 + s.scopeEnds.length
  quiet : unopened ∉ s.records

namespace State.Aligned

/-- What stays in a block leaves the branches that are open. -/
theorem of_within (h : s.Aligned) (hwithin : s.Within t) : t.Aligned := by
  refine ⟨hwithin.document.indented h.indented, ?_, fun hmem => h.quiet (hwithin.records hmem)⟩
  rw [hwithin.document.depth_eq, hwithin.ends, h.depth_eq]

theorem depth_pos (h : s.Aligned) : 0 < s.document.depth := by
  have := h.depth_eq
  omega

/-- A block may be replaced by the block of a label. -/
theorem reopen (h : s.Aligned) (hwithin : s.closeScope.Within t) (hst : st.isHeader = true) :
    (t.header st).Aligned := by
  refine ⟨(hwithin.document.indented h.indented.closeScope).header hst, ?_, fun hmem => ?_⟩
  · have hclosed : t.document.depth = s.document.depth - 1 :=
      hwithin.document.depth_eq.trans s.document.depth_closeScope
    have hends : t.scopeEnds = s.scopeEnds := hwithin.ends
    have hdepth := h.depth_eq
    show (t.document.header st).depth = 1 + t.scopeEnds.length
    rw [Document.depth_header, hends]
    omega
  · have hmem' := hwithin.records hmem
    rw [records_closeScope h.depth_pos] at hmem'
    exact h.quiet hmem'

theorem placeLabel (h : s.Aligned) (c : Context) (addr : Nat) : (s.placeLabel c addr).Aligned := by
  unfold State.placeLabel
  split
  · have hasked :
        ({ s with pendingLabels := s.pendingLabels.filter (· != addr) } : State).Aligned :=
      h.of_within ⟨.refl _, rfl, id⟩
    exact hasked.reopen (.refl _) rfl
  · exact h

/-- The lines around a range of scenes are a block of their own, or a label. -/
theorem placeSkipMark (h : s.Aligned) (c : Context) (addr : Nat) :
    (s.placeSkipMark c addr).Aligned := by
  cases hmark : c.skipMark? addr with
  | none => exact h.of_within (placeSkipMark_within fun index hstop => (by simp [hmark] at hstop))
  | some mark =>
    cases mark with
    | start index insertTransition stopScript =>
      exact h.of_within (placeSkipMark_within fun index hstop => (by simp [hmark] at hstop))
    | stop index =>
      rw [placeSkipMark_of_stop hmark]
      exact h.reopen ((State.Within.refl _).remark _) rfl

/-- As many blocks close as branches end. -/
theorem closeBranches (h : s.Aligned) (addr : Nat) : (s.closeBranches addr).Aligned := by
  have hclose : ∀ (closed left : List Nat) (s : State), s.document.Indented →
      s.document.depth = 1 + (closed.length + left.length) → unopened ∉ s.records →
      ({ closed.foldl (fun s _ => s.closeScope) s with scopeEnds := left } : State).Aligned := by
    intro closed left
    induction closed with
    | nil =>
      intro s hindented hdepth hquiet
      exact ⟨hindented, by simpa using hdepth, hquiet⟩
    | cons _ closed ih =>
      intro s hindented hdepth hquiet
      rw [List.length_cons] at hdepth
      refine ih s.closeScope hindented.closeScope ?_ ?_
      · have hclosed : s.closeScope.document.depth = s.document.depth - 1 :=
          s.document.depth_closeScope
        omega
      · rw [records_closeScope (by omega)]
        exact hquiet
  refine hclose _ (s.scopeEnds.dropWhile (· == addr)) s h.indented ?_ h.quiet
  rw [← List.length_append, List.takeWhile_append_dropWhile]
  exact h.depth_eq

theorem arrive (h : s.Aligned) (c : Context) (i : Instruction) (rest : List Instruction) :
    (s.arrive c i rest).Aligned := by
  have hreached := ((h.placeSkipMark c i.addr).closeBranches i.addr).placeLabel c i.addr
  unfold State.arrive
  dsimp only
  split
  · exact hreached.of_within ⟨.refl _, rfl, id⟩
  · exact hreached

theorem announce (h : s.Aligned) (c : Context) (i : Instruction) : (announce c s i).Aligned :=
  h.of_within (Acts.within (c := c) (P := fun _ => False) id (announce_acts i))

/-- One block more is open, and one branch more. -/
theorem branch (h : s.Aligned) (c : Context) (b : Branch) : (branch c s b).Aligned := by
  obtain ⟨t, st, hwithin, -, hst, heq⟩ := branch_eq c s b
  have ht := h.of_within hwithin
  rw [heq]
  refine ⟨ht.indented.header hst.isHeader, ?_, ht.quiet⟩
  show (t.document.header st).depth = 1 + (b.close :: s.scopeEnds).length
  rw [Document.depth_header, ht.depth_eq, hwithin.ends, List.length_cons]
  omega

/-- A step that does not halt leaves blocks and branches together. -/
theorem step {i : Instruction} {rest : List Instruction} (h : s.Aligned)
    (hstep : Screenplay.step c s i rest = .ok s') : s'.Aligned := by
  cases stepped_of_ok hstep with
  | ending hend => exact (h.closeBranches i.addr).placeLabel c i.addr
  | unhandled hend hread =>
    exact (h.arrive c i rest).of_within ((State.Within.refl _).remark _)
  | @command command _ hend hread hexec =>
    have hready := (h.arrive c i rest).announce c i
    by_cases hbranch : ∃ b, command = .branch b
    · obtain ⟨b, rfl⟩ := hbranch
      obtain rfl := Except.ok.inj hexec
      exact hready.branch c b
    · exact hready.of_within (execute_within (fun b hb => hbranch ⟨b, hb⟩) hexec)

end State.Aligned

/-- A step that halts leaves a document that can be ended. -/
theorem State.Aligned.halted {i : Instruction} {rest : List Instruction} {halt : Halt}
    (h : s.Aligned) (hstep : Screenplay.step c s i rest = .error halt) :
    halt.state.document.Indented ∧ unopened ∉ halt.state.records := by
  have hready := (h.arrive c i rest).announce c i
  rcases step_error_cases hstep with ⟨-, rfl⟩ | ⟨command, -, hexec⟩
  · exact ⟨hready.indented, hready.quiet⟩
  · have hhalted := halted_of_error hexec
    generalize halt.state = t at hhalted ⊢
    cases hhalted with
    | stage g => exact ⟨hready.indented, hready.quiet⟩
    | menu => exact ⟨hready.indented.header rfl, hready.quiet⟩
    | drawn =>
      rw [draw_eq]
      exact ⟨(Document.Within.cues _ _).indented hready.indented, hready.quiet⟩

/-! ## The whole run -/

/-- The states that a run through `l` from `s` comes through, each with the instructions that are
left. -/
inductive Runs (c : Context) (l : List Instruction) (s : State) :
    List Instruction → State → Prop where
  | here : Runs c l s l s
  | step {i : Instruction} {rest : List Instruction} {t t' : State} : Runs c l s (i :: rest) t →
      step c t i rest = .ok t' → Runs c l s rest t'

/-- The states that the run of a context comes through. -/
abbrev Reached (c : Context) : List Instruction → State → Prop :=
  Runs c c.instructions (start c)

theorem aligned_start (c : Context) : (start c).Aligned :=
  ⟨(Document.Indented.empty.comment _).header rfl, rfl, by simp [Screenplay.start]⟩

/-- By induction on the run. -/
theorem Runs.aligned {l rest : List Instruction} (h : Runs c l s rest t) (hs : s.Aligned) :
    t.Aligned := by
  induction h with
  | here => exact hs
  | step _ hstep ih => exact ih.step hstep

/-- A run ends in a state that it comes to after all instructions, or halts at one of them. -/
theorem reached_of_run (c : Context) :
    (∀ s', runFrom c (start c) 0 c.instructions = .ok s' → Reached c [] s') ∧
      ∀ stop halt, runFrom c (start c) 0 c.instructions = .error (stop, halt) →
        ∃ i rest s, Reached c (i :: rest) s ∧ step c s i rest = .error halt := by
  have hrun := runFrom_induction (c := c) (l := c.instructions)
    (I := fun before s => ∀ rest, before ++ rest = c.instructions → Reached c rest s)
    (fun before i rest s s' hl hs hstep left hleft => by
      have hrest : rest = left := by
        rw [List.append_assoc] at hleft
        exact (List.cons.inj (List.append_cancel_left (hl.trans hleft.symm))).2
      exact hrest ▸ (hs (i :: rest) hl).step hstep)
    c.instructions [] (start c) 0 rfl (fun rest hrest => (show rest = _ from hrest) ▸ .here)
  refine ⟨fun s' hok => hrun.1 s' hok [] (List.append_nil _), fun stop halt herror => ?_⟩
  obtain ⟨before, i, rest, s, hl, hs, hstep⟩ := hrun.2 stop halt herror
  exact ⟨i, rest, s, hs (i :: rest) hl, hstep⟩

/-- How a screenplay came about. -/
inductive Outcome (c : Context) (p : Screenplay) : Prop where
  /-- The run went through all instructions, and the blocks that were still open are closed. -/
  | complete {s : State} : Reached c [] s → p.isComplete = true → p.document = s.document.closeAll →
      Outcome c p
  /-- The run halted at an instruction. -/
  | halted {i : Instruction} {rest : List Instruction} {s : State} {halt : Halt} :
      Reached c (i :: rest) s → step c s i rest = .error halt → p.isComplete = false →
      p.document = (halt.state.document.comment .interrupted).statement .reportIncomplete →
        Outcome c p

theorem outcome_ofInstructions (name : String) (l : List Instruction) (graph : BlockGraph)
    (p : Profile) :
    Outcome ⟨p, Unicode.toUpper name, l, graph⟩ (ofInstructions name l graph p) := by
  obtain ⟨hok, herror⟩ := reached_of_run ⟨p, Unicode.toUpper name, l, graph⟩
  unfold ofInstructions
  dsimp only
  split
  · next s hrun => exact .complete (hok s hrun) rfl rfl
  · next stop halt hrun =>
    obtain ⟨i, rest, s, hs, hstep⟩ := herror stop halt hrun
    exact .halted hs hstep rfl rfl

/-- A script is complete, or its run halted at an instruction. -/
theorem outcome_transpile (name : String) (script : List UInt8) (p : Profile) :
    Outcome (scriptContext name script p) (transpile name script p) := by
  cases outcome_ofInstructions name (Bytecode.decode p.version true script)
    (BlockGraph.build (Bytecode.decode p.version true script)) p with
  | complete hs hcomplete hdocument => exact .complete hs hcomplete hdocument
  | halted hs hstep hcomplete hdocument => exact .halted hs hstep hcomplete hdocument

/-- Between any two instructions of a run there is one block more than branches are open. After a
complete run all blocks are closed, none was closed that was not open, and, complete or not, the
document is well indented: each header is followed by something deeper, and nothing else is. -/
theorem ofInstructions_wellIndented (name : String) (l : List Instruction) (graph : BlockGraph)
    (p : Profile) :
    (∀ rest s, Reached ⟨p, Unicode.toUpper name, l, graph⟩ rest s →
      s.document.depth = 1 + s.scopeEnds.length) ∧
    ((ofInstructions name l graph p).isComplete = true →
      (ofInstructions name l graph p).document.depth = 0) ∧
    unopened ∉ (ofInstructions name l graph p).records ∧
    Renpy.WellIndented (ofInstructions name l graph p).document.rows ∧
    ∀ front header rest, (ofInstructions name l graph p).document.rows = front ++ header :: rest →
      header.statement.isHeader = true → ∃ r ∈ rest.head?, r.depth = header.depth + 1 := by
  refine ⟨fun rest s hs => (hs.aligned (aligned_start _)).depth_eq, ?_⟩
  -- the last part is what well indented rows have in common
  suffices h : ((ofInstructions name l graph p).isComplete = true →
      (ofInstructions name l graph p).document.depth = 0) ∧
      unopened ∉ (ofInstructions name l graph p).records ∧
      Renpy.WellIndented (ofInstructions name l graph p).document.rows by
    refine ⟨h.1, h.2.1, h.2.2, fun front header rest hrows hheader => ?_⟩
    exact Renpy.WellIndented.deeper (hrows ▸ h.2.2) hheader
  obtain ⟨hok, herror⟩ := reached_of_run ⟨p, Unicode.toUpper name, l, graph⟩
  unfold ofInstructions
  dsimp only
  split
  · next s hrun =>
    have haligned := (hok s hrun).aligned (aligned_start _)
    obtain ⟨hindented, hdepth⟩ := haligned.indented.closeAll
    refine ⟨fun _ => hdepth, ?_, hindented.wellIndented hdepth⟩
    rw [Array.mem_toList_iff]
    exact haligned.quiet
  · next index halt hrun =>
    obtain ⟨i, rest, s, hs, hstep⟩ := herror index halt hrun
    obtain ⟨hindented, hquiet⟩ := (hs.aligned (aligned_start _)).halted hstep
    refine ⟨fun h => (by cases h), ?_, (hindented.comment _).wellIndented_statement rfl⟩
    rw [Array.mem_toList_iff]
    exact fun hmem => hquiet (((State.Within.refl halt.state).report (by decide) _).records hmem)

/-- A branch, a line without its text, and the menu that the line waits for. -/
def menuCutShort : List Instruction :=
  [⟨0, 11, some 1, .jeq, [.int 1000, .int 0, .int 8]⟩, ⟨11, 4, some 0x41, .textN, []⟩,
    ⟨15, 4, some 2, .option, [.options []]⟩]

/-- The run halts under the header of the menu, and the block of the menu is not empty. -/
theorem wellIndented_of_menuCutShort :
    (ofInstructions "a" menuCutShort ⟨[]⟩ {}).document.rows.map (·.depth) = [0, 1, 2, 3] ∧
      Renpy.WellIndented (ofInstructions "a" menuCutShort ⟨[]⟩ {}).document.rows ∧
      (start ⟨{}, Unicode.toUpper "a", menuCutShort, ⟨[]⟩⟩).document.depth = 1 + 0 := by
  have h := ofInstructions_wellIndented "a" menuCutShort ⟨[]⟩ {}
  exact ⟨by decide +kernel, h.2.2.2.1, h.1 _ _ .here⟩

end Rio.Screenplay
