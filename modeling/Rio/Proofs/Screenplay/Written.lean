import Rio.Proofs.Screenplay.Acts
import Rio.Proofs.Stage.Places

/-!
# What a run has written

A document grows at its end. Seen as the list of its statements, without comments and depths,
every way to extend it appends a few statements:

> `Act.written`: an act appends statements that it may write;
> `statements_draw`: a drawing appends its cues, each shot followed by the lines of its block.

Blocks that close empty are filled with `pass`, so closing blocks appends nothing else. Whether a
command is carried out or halts, what it appends is in the table of what it may write
(`execute_error_written`).
-/

namespace Rio.Renpy.Document

variable {d : Document}

/-- The statements of a document, in order. -/
def statements (d : Document) : List Statement :=
  d.rows.map (·.statement)

@[simp] theorem statements_statement (d : Document) (s : Statement) :
    (d.statement s).statements = d.statements ++ [s] := by
  simp [statements]

@[simp] theorem statements_comment (d : Document) (r : Remark) :
    (d.comment r).statements = d.statements := by
  simp [statements]

@[simp] theorem statements_header (d : Document) (s : Statement) :
    (d.header s).statements = d.statements ++ [s] := by
  simp [statements]

/-- Closing a block appends `pass` or nothing. -/
theorem statements_closeScope (d : Document) :
    ∃ n, d.closeScope.statements = d.statements ++ List.replicate n .pass := by
  unfold closeScope
  split
  · exact ⟨0, (List.append_nil _).symm⟩
  · exact ⟨0, (List.append_nil _).symm⟩
  · exact ⟨1, d.statements_statement .pass⟩

/-- All that closing adds is `pass`, once for each empty block. -/
theorem statements_closeAll (d : Document) :
    ∃ n, d.closeAll.statements = d.statements ++ List.replicate n .pass := by
  unfold closeAll
  generalize d.scopes = scopes
  induction scopes generalizing d with
  | nil => exact ⟨0, (List.append_nil _).symm⟩
  | cons _ scopes ih =>
    obtain ⟨n, hn⟩ := d.statements_closeScope
    obtain ⟨m, hm⟩ := ih d.closeScope
    refine ⟨n + m, ?_⟩
    rw [List.foldl_cons, hm, hn, List.append_assoc, List.replicate_append_replicate]

/-- The blocks left open end without statements of another kind. -/
theorem filter_closeAll {p : Statement → Bool} (hpass : p .pass = false) (d : Document) :
    d.closeAll.statements.filter p = d.statements.filter p := by
  obtain ⟨n, hn⟩ := d.statements_closeAll
  rw [hn, List.filter_append, List.filter_replicate, if_neg (by simp [hpass]), List.append_nil]

theorem statements_foldl_statement {α : Type} (f : α → Statement) (xs : List α) (d : Document) :
    (xs.foldl (fun d x => d.statement (f x)) d).statements = d.statements ++ xs.map f := by
  induction xs generalizing d with
  | nil => simp
  | cons x xs ih =>
    rw [List.foldl_cons, ih]
    simp

/-- A shot is followed by the lines of its block. -/
theorem statements_shot (d : Document) (s : Shot) (lines : List AtlLine) :
    (d.shot s lines).statements
      = d.statements ++ .shot s (!lines.isEmpty) :: lines.map .atl := by
  unfold shot
  cases lines with
  | nil => simp
  | cons line lines =>
    have hstatements := statements_foldl_statement .atl (line :: lines) (d.header (.shot s true))
    have hscopes := scopes_foldl_statement .atl (line :: lines) (d := d.header (.shot s true)) rfl
    rw [if_neg (by simp)]
    generalize (line :: lines).foldl _ _ = block at hstatements hscopes ⊢
    have hclose : block.closeScope.statements = block.statements := by
      unfold closeScope
      rw [hscopes]
      rfl
    rw [hclose, hstatements]
    simp

end Rio.Renpy.Document

namespace Rio.Stage

open Renpy (Statement)

/-- What a cue adds to a document. -/
def Cue.statements : Cue → List Statement
  | .draw s lines => .shot s (!lines.isEmpty) :: lines.map .atl
  | .hide t => [.hide t]

end Rio.Stage

/-- The expression of a flag that may be used. -/
def Rio.FlagAccess.reference? : FlagAccess → Option String
  | .granted reference => some reference
  | .excluded | .hinted _ | .unmapped => none

namespace Rio.Screenplay

open Renpy (Document Statement)

variable {c : Context} {P : Statement → Prop} {s s' : State}

/-- The cues of a drawing are written in order. -/
theorem statements_foldl_cue (cues : List Stage.Cue) (d : Document) :
    (cues.foldl Document.cue d).statements = d.statements ++ cues.flatMap Stage.Cue.statements := by
  induction cues generalizing d with
  | nil => simp
  | cons cue cues ih =>
    have hcue : (d.cue cue).statements = d.statements ++ cue.statements := by
      cases cue with
      | draw shot lines => exact d.statements_shot shot lines
      | hide tag => exact d.statements_statement (.hide tag)
    rw [List.foldl_cons, ih, hcue, List.flatMap_cons, List.append_assoc]

/-- Drawing writes the cues of the stage and nothing else. -/
theorem statements_draw (c : Context) (s : State) :
    (draw c s).2.document.statements
      = s.document.statements ++ (s.stage.draw c.drawing).2.1.flatMap Stage.Cue.statements := by
  rw [draw_eq]
  exact statements_foldl_cue ..

/-- Every statement of a cue shows or hides a picture, or moves one. -/
theorem isCue_of_mem_cues {cues : List Stage.Cue} {st : Statement}
    (h : st ∈ cues.flatMap Stage.Cue.statements) : st.isCue = true := by
  obtain ⟨cue, -, hst⟩ := List.mem_flatMap.mp h
  cases cue with
  | draw shot lines =>
    rcases List.mem_cons.mp hst with rfl | hst
    · rfl
    · obtain ⟨line, -, rfl⟩ := List.mem_map.mp hst
      rfl
  | hide tag =>
    rw [List.mem_singleton.mp hst]
    rfl

/-- Statements with a property were appended. -/
def Written (P : Statement → Prop) (s s' : State) : Prop :=
  ∃ added, s'.document.statements = s.document.statements ++ added ∧ ∀ st ∈ added, P st

namespace Written

theorem none (h : s'.document.statements = s.document.statements) : Written P s s' :=
  ⟨[], by rw [h, List.append_nil], fun _ hst => (by cases hst)⟩

theorem one {st : Statement} (hst : P st)
    (h : s'.document.statements = s.document.statements ++ [st]) : Written P s s' :=
  ⟨[st], h, fun _ hmem => List.mem_singleton.mp hmem ▸ hst⟩

theorem mono {Q : Statement → Prop} (h : Written P s s') (himp : ∀ st, P st → Q st) :
    Written Q s s' := by
  obtain ⟨added, heq, hP⟩ := h
  exact ⟨added, heq, fun st hst => himp st (hP st hst)⟩

/-- Two changes write one after the other. -/
theorem trans {t : State} (h : Written P s t) (h' : Written P t s') : Written P s s' := by
  obtain ⟨added, heq, hP⟩ := h
  obtain ⟨added', heq', hP'⟩ := h'
  refine ⟨added ++ added', by rw [heq', heq, List.append_assoc], fun st hst => ?_⟩
  exact (List.mem_append.mp hst).elim (hP st) (hP' st)

/-- A block that closes may be given `pass`. -/
theorem closeScope (hpass : P .pass) (s : State) : Written P s s.closeScope := by
  obtain ⟨n, hn⟩ := s.document.statements_closeScope
  exact ⟨_, hn, fun st hst => List.eq_of_mem_replicate hst ▸ hpass⟩

/-- A label closes the block around it. -/
theorem placeLabel {addr : Nat} (hlabel : P (.label (c.label addr))) (hpass : P .pass)
    (s : State) : Written P s (s.placeLabel c addr) := by
  unfold State.placeLabel
  split
  · exact (closeScope hpass s).trans (one hlabel (s.document.closeScope.statements_header _))
  · exact none rfl

theorem draw (hcue : ∀ st, st.isCue → P st) (c : Context) (s : State) :
    Written P s (draw c s).2 :=
  ⟨_, statements_draw c s, fun st hst => hcue st (isCue_of_mem_cues hst)⟩

/-- Nothing that was written is taken back. -/
theorem isPrefix (h : Written P s s') : s.document.statements <+: s'.document.statements := by
  obtain ⟨added, hstatements, -⟩ := h
  exact hstatements ▸ List.prefix_append ..

/-- Statements of other kinds leave a selection as it is. -/
theorem filter_eq {p : Statement → Bool} (h : Written (fun st => p st = false) s s') :
    s'.document.statements.filter p = s.document.statements.filter p := by
  obtain ⟨added, heq, hadded⟩ := h
  have hnone : added.filter p = [] :=
    List.filter_eq_nil_iff.mpr fun st hst => by simp [hadded st hst]
  rw [heq, List.filter_append, hnone, List.append_nil]

end Written

/-- An act appends what it may write. -/
theorem Act.written (h : Act c P s s') : Written P s s' := by
  cases h with
  | emit hst => exact .one hst (s.document.statements_statement _)
  | header hst => exact .one hst (s.document.statements_header _)
  | remark r => exact .none (s.document.statements_comment r)
  | close hpass => exact .closeScope hpass s
  | ask hst => exact .one hst (s.document.statements_statement _)
  | place hlabel hpass => exact .placeLabel hlabel hpass s
  | draw hcue => exact .draw hcue c s
  | report | remember | hold | release | scope | stage | standIn => exact .none rfl

/-- Acts write only what they may write. -/
theorem Acts.written (h : Acts c P s s') : Written P s s' :=
  h.preserves (I := Written P s) (fun hact ht => ht.trans hact.written) (.none rfl)

/-- The ends of branches and the label at an address. -/
theorem Written.closeBranches_placeLabel {addr : Nat} (hlabel : P (.label (c.label addr)))
    (hpass : P .pass) (s : State) : Written P s ((s.closeBranches addr).placeLabel c addr) := by
  have hclose : Acts c P s (s.closeBranches addr) := closeBranches_acts hpass addr
  exact hclose.written.trans (.placeLabel hlabel hpass _)

/-! ## Flags -/

section

open Renpy (Remark)

theorem access_fst (s : State) (flag : Int) (found : FlagAccess) (hint : String → Remark) :
    (s.access flag found hint).1 = found.reference? := by
  cases found <;> rfl

/-- Asking for a flag writes no statement. -/
theorem statements_access (s : State) (flag : Int) (found : FlagAccess) (hint : String → Remark) :
    (s.access flag found hint).2.document.statements = s.document.statements := by
  cases found with
  | granted reference | excluded => rfl
  | hinted reference => exact s.document.statements_comment (hint reference)
  | unmapped => exact s.document.statements_comment (.unmappedFlag flag)

end

/-! ## Commands that halt -/

variable {i : Instruction} {rest : List Instruction} {halt : Halt}

/-- A line that nobody can say leaves no trace. -/
theorem state_of_speak_error (h : speak c s i = .error halt) : halt.state = s := by
  unfold speak at h
  split at h
  · split at h
    · cases h
    · cases h
      rfl
  · cases h
    rfl

/-- What is left of a picture that could not be put into its place. -/
theorem stage_of_showForeground_error {addr index : Nat} {name : String} {x y : Int}
    {untinted : Bool} (h : showForeground s addr index name x y untinted = .error halt) :
    ∃ g, halt.state = { s with stage := g } := by
  unfold showForeground at h
  cases hput : putForeground s addr index name x y with
  | ok t =>
    rw [hput] at h
    cases h
  | error halt' =>
    rw [hput] at h
    cases h
    unfold putForeground at hput
    split at hput
    · cases hput
    · split at hput
      · cases hput
      · dsimp only at hput
        split at hput
        · cases hput
        · cases hput
          exact ⟨_, rfl⟩

/-- What is left of an object that could not be replaced. -/
theorem stage_of_showObject_error {addr : Nat} {name : String} {x y : Int}
    (h : showObject s addr name x y = .error halt) : ∃ g, halt.state = { s with stage := g } := by
  unfold showObject at h
  dsimp only at h
  split at h
  · split at h
    · split at h
      · cases h
      · cases h
        exact ⟨_, rfl⟩
    · cases h
  · cases h

/-- An effect without its mask is not written at all. -/
theorem state_of_showEffect_error {addr : Nat} {method : Method} {ms : Int}
    (h : showEffect c s addr method ms = .error halt) : halt.state = s := by
  unfold showEffect at h
  dsimp only at h
  cases method with
  | code n => cases h
  | named t =>
    dsimp only at h
    split at h
    · split at h
      · cases h
      · cases h
        rfl
    · split at h
      · split at h <;> cases h
      · split at h <;> cases h

theorem state_of_keyFrame_error {motion : Option Motion} (h : keyFrame c s i motion = .error halt) :
    halt.state = s := by
  have hforeground : ∀ kind index (m : Motion),
      moveForeground s i.addr kind index m = .error halt → halt.state = s := by
    intro kind index m h
    unfold moveForeground at h
    split at h
    · cases h
    · split at h
      · cases h
      · cases h
        rfl
  unfold keyFrame at h
  split at h
  · cases h
  · split at h
    · unfold addMotion at h
      split at h
      · cases h
      · split at h
        · cases h
        · split at h
          · exact hforeground _ _ _ h
          · exact hforeground _ _ _ h
    · cases h
      rfl

/-- The state in which a command halts. -/
inductive Halted (c : Context) (s : State) : Command → State → Prop where
  /-- Nothing was written, but the stage may have changed. -/
  | stage {command : Command} (g : Stage) : Halted c s command { s with stage := g }
  /-- The line under a menu could not be said. -/
  | menu {choices : List MenuOption} :
      Halted c s (.menu choices) { s.header .menu with held := none }
  /-- The stage was drawn, but not the transition to it. -/
  | drawn {method : Method} {ms : Int} : Halted c s (.transition method ms) (draw c s).2

/-- By cases on the commands that can halt. -/
theorem halted_of_error {command : Command} (h : execute c i rest s command = .error halt) :
    Halted c s command halt.state := by
  have hsame : halt.state = s → Halted c s command halt.state :=
    fun heq => heq.symm ▸ .stage s.stage
  have hstage : (∃ g, halt.state = { s with stage := g }) → Halted c s command halt.state :=
    fun ⟨g, heq⟩ => heq.symm ▸ .stage g
  cases command with
  | menu choices =>
    change menu c s choices = .error halt at h
    unfold menu at h
    dsimp only at h
    split at h
    · next j _ _ =>
      cases hspeak : speak c { s.header .menu with held := none } j with
      | ok t =>
        rw [hspeak] at h
        cases h
      | error halt' =>
        rw [hspeak] at h
        cases h
        rw [state_of_speak_error hspeak]
        exact .menu
    · cases h
  | say =>
    change say c s i rest = .error halt at h
    unfold say at h
    split at h
    · cases h
    · exact hsame (state_of_speak_error h)
  | sleep ms =>
    change sleep s i ms = .error halt at h
    unfold sleep at h
    split at h
    · cases h
    · split at h
      · cases h
      · cases h
        exact hsame rfl
  | foreground index name x y untinted => exact hstage (stage_of_showForeground_error h)
  | object name x y => exact hstage (stage_of_showObject_error h)
  | transition method ms =>
    change transition c s i.addr method ms = .error halt at h
    unfold transition at h
    dsimp only at h
    split at h
    · cases h
    · rw [state_of_showEffect_error h]
      exact .drawn
  | keyFrame motion => exact hsame (state_of_keyFrame_error h)
  | _ => cases h

/-- A command that halts has written what it may write, and takes nothing back. -/
theorem execute_error_written {command : Command} (hwrites : ∀ st, command.writes st → P st)
    (h : execute c i rest s command = .error halt) : Written P s halt.state := by
  have hhalted := halted_of_error h
  generalize halt.state = t at hhalted ⊢
  cases hhalted with
  | stage g => exact .none rfl
  | menu => exact .one (hwrites _ rfl) (s.document.statements_header .menu)
  | drawn =>
    exact .draw (fun st hst => hwrites st (Command.writes_transition _ _ hst)) c s

end Rio.Screenplay
