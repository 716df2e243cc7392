import Rio.Proofs.Renpy.Ways
import Rio.Proofs.Screenplay.Guards

/-!
# Guards of scenes to skip

Where a range of scenes starts that is only shown on request, a guard is written: a block that
leads around the range unless the player asked for it. The guard of a range that starts at an
instruction stands right before the lines of the instruction, at the same depth, and no way
through the document leads past it (`transpile_skipGuard`), but only if no branch ends at the
instruction and no jump leads to it. The guard is written before the branches that end there are
closed and before the label is set, so otherwise it is left in the block of a branch, or stands
before the label that the jumps lead to (`skipGuard_bypassed`).
-/

namespace Rio

open Renpy (Among Document Goes Label Row Shield Statement)

namespace Screenplay

variable {c : Context} {s s' t : State} {i : Instruction} {rest : List Instruction}

/-! ## What a step leaves behind -/

theorem label?_of_writes {command : Command} {st : Statement} (h : command.writes st = true) :
    st.label? = none := by
  cases st with
  | label l => cases command <;> cases h
  | _ => rfl

/-- A command sets no label. -/
theorem written_execute (c : Context) (i : Instruction) (rest : List Instruction) (s : State)
    (command : Command) :
    Written (fun st => st.label? = none) s (outcome (execute c i rest s command)) := by
  cases hexec : execute c i rest s command with
  | ok s' => exact (execute_acts (fun st => label?_of_writes) (fun _ _ _ => rfl) hexec).written
  | error halt => exact execute_error_written (fun st => label?_of_writes) hexec

/-- What is written for an instruction belongs to the block that is open there. -/
theorem addsWithin_step (c : Context) (s : State) (hend : i.mnemonic ≠ .endOfStream)
    (rest : List Instruction) :
    (s.arrive c i rest).document.AddsWithin (outcome (step c s i rest)).document := by
  have hends := stepEnds_outcome c s i rest
  generalize outcome (step c s i rest) = t at hends ⊢
  have hrows : (announce c (s.arrive c i rest) i).document.rows
      = (s.arrive c i rest).document.rows :=
    rows_announce _ i
  cases hends with
  | ending hlast => exact absurd hlast hend
  | unhandled => exact .of_rows_eq (Document.rows_comment ..)
  | malformed => exact .of_rows_eq hrows
  | command =>
    have hdepth : (announce c (s.arrive c i rest) i).document.depth
        = (s.arrive c i rest).document.depth :=
      (Acts.within (c := c) (P := fun _ => False) id (announce_acts i)).document.depth_eq
    exact .trans hdepth (.of_rows_eq hrows) (addsWithin_execute ..)

/-- So do its comments. -/
theorem writesWithin_step (c : Context) (s : State) (hend : i.mnemonic ≠ .endOfStream)
    (rest : List Instruction) :
    (s.arrive c i rest).document.WritesWithin (outcome (step c s i rest)).document := by
  have hends := stepEnds_outcome c s i rest
  generalize outcome (step c s i rest) = t at hends ⊢
  have hannounce :=
    (Acts.within (c := c) (P := fun _ => False) id
      (announce_acts (s := s.arrive c i rest) i)).document
  cases hends with
  | ending hlast => exact absurd hlast hend
  | unhandled => exact .comment (s.arrive c i rest).document _
  | malformed => exact hannounce.writes
  | command => exact hannounce.writes.trans hannounce.depth_eq (writesWithin_execute ..)

/-- What is written for an instruction sets no label. -/
theorem written_step (c : Context) (s : State) (hend : i.mnemonic ≠ .endOfStream)
    (rest : List Instruction) :
    Written (fun st => st.label? = none) (s.arrive c i rest) (outcome (step c s i rest)) := by
  have hends := stepEnds_outcome c s i rest
  generalize outcome (step c s i rest) = t at hends ⊢
  have hannounce : Written (fun st => st.label? = none) (s.arrive c i rest)
      (announce c (s.arrive c i rest) i) :=
    (announce_acts (c := c) i).written
  cases hends with
  | ending hlast => exact absurd hlast hend
  | unhandled => exact .none (Document.statements_comment ..)
  | malformed => exact hannounce
  | command => exact hannounce.trans (written_execute ..)

/-- The rows that were added hold the statements that were appended. -/
theorem Written.of_rows {P : Statement → Prop} {lines : List Row} (h : Written P s s')
    (hrows : s'.document.rows = s.document.rows ++ lines) : ∀ r ∈ lines, P r.statement := by
  obtain ⟨added, hadded, hP⟩ := h
  unfold Document.statements at hadded
  rw [hrows, List.map_append] at hadded
  obtain rfl := List.append_cancel_left hadded
  intro r hr
  exact hP r.statement (List.mem_map_of_mem hr)

theorem label?_of_statement {r : Row} (h : r.statement.label? = none) : r.label? = none := by
  unfold Row.label?
  split
  · next l hl =>
    rw [hl] at h
    cases h
  · rfl

/-! ## What a run leaves behind -/

/-- No act takes a line back. -/
theorem Act.entries_isPrefix {P : Statement → Prop} (h : Act c P s s') :
    s.document.entries.toList <+: s'.document.entries.toList := by
  cases h with
  | emit | ask => exact (Document.WritesWithin.statement s.document _).isPrefix
  | header => exact (Document.WritesWithin.header s.document _).isPrefix
  | remark r => exact (Document.WritesWithin.comment s.document r).isPrefix
  | close => exact s.document.isPrefix_closeScope
  | @place _ addr =>
    unfold State.placeLabel
    split
    · exact s.document.isPrefix_closeScope.trans
        (Document.WritesWithin.header s.document.closeScope _).isPrefix
    · exact List.prefix_rfl
  | draw =>
    rw [draw_eq]
    exact (Document.Within.cues _ _).writes.isPrefix
  | report | remember | hold | release | scope | stage | standIn => exact List.prefix_rfl

theorem Acts.entries_isPrefix {P : Statement → Prop} (h : Acts c P s s') :
    s.document.entries.toList <+: s'.document.entries.toList :=
  h.preserves (I := fun t => s.document.entries.toList <+: t.document.entries.toList)
    (fun hact ht => ht.trans hact.entries_isPrefix) List.prefix_rfl

/-- A step adds to the document, whether it halts or not. -/
theorem entries_step (hi : i ∈ c.instructions) (s : State) (rest : List Instruction) :
    s.document.entries.toList <+: (outcome (step c s i rest)).document.entries.toList := by
  by_cases hend : i.mnemonic = .endOfStream
  · cases hstep : step c s i rest with
    | ok s' => exact (step_acts (allowed_all c) hi hstep).entries_isPrefix
    | error halt =>
      rcases step_error_cases hstep with ⟨hread, -⟩ | ⟨command, hread, -⟩
      · cases (ofInstruction_of_endOfStream hend).symm.trans hread
      · cases (ofInstruction_of_endOfStream hend).symm.trans hread
  · have harrive : Acts c (fun _ => True) s (s.arrive c i rest) :=
      arrive_acts (allowed_all c).toAllowedBefore hi rest
    exact harrive.entries_isPrefix.trans (writesWithin_step c s hend rest).isPrefix

/-- A run adds to the document, and so does one that halts. -/
theorem entries_runFrom {l : List Instruction} {k : Nat} (hl : ∀ i ∈ l, i ∈ c.instructions) :
    (∀ s', runFrom c s k l = .ok s' → s.document.entries.toList <+: s'.document.entries.toList) ∧
      ∀ stop halt, runFrom c s k l = .error (stop, halt) →
        s.document.entries.toList <+: halt.state.document.entries.toList := by
  induction l generalizing s k with
  | nil =>
    refine ⟨fun s' hrun => ?_, fun stop halt hrun => (by cases hrun)⟩
    obtain rfl := Except.ok.inj hrun
    exact List.prefix_rfl
  | cons i l ih =>
    have hadds := entries_step (hl i (List.mem_cons_self ..)) s l
    unfold runFrom
    cases hstep : step c s i l with
    | ok t =>
      rw [hstep] at hadds
      obtain ⟨hok, herror⟩ := ih (s := t) (k := k + 1) fun j hj => hl j (List.mem_cons_of_mem _ hj)
      exact ⟨fun s' hrun => hadds.trans (hok s' hrun),
        fun stop halt hrun => hadds.trans (herror stop halt hrun)⟩
    | error halt =>
      rw [hstep] at hadds
      refine ⟨fun s' hrun => (by cases hrun), fun stop halt' hrun => ?_⟩
      obtain ⟨-, rfl⟩ := Prod.mk.inj (Except.error.inj hrun)
      exact hadds

/-- A run goes on from every state that it comes to. -/
theorem Runs.runFrom_eq {l : List Instruction} (h : Runs c l s rest t) (index : Nat) :
    ∃ k, runFrom c s index l = runFrom c t k rest := by
  induction h with
  | here => exact ⟨index, rfl⟩
  | @step i rest t t' _ hstep ih =>
    obtain ⟨k, hk⟩ := ih
    refine ⟨k + 1, ?_⟩
    rw [hk, runFrom, hstep]

/-- A branch that is open closes where one of the branches so far closes. -/
theorem Runs.exists_of_mem_scopeEnds (h : Reached c rest s) :
    ∃ before, before ++ rest = c.instructions ∧
      ∀ e ∈ s.scopeEnds, ∃ b ∈ before, b.close? = some e := by
  induction h with
  | here => exact ⟨[], rfl, fun e he => (by cases he)⟩
  | @step i rest t t' _ hstep ih =>
    obtain ⟨before, heq, hends⟩ := ih
    refine ⟨before ++ [i], by rw [← heq]; simp, fun e he => ?_⟩
    rw [scopeEnds_step hstep] at he
    rcases List.mem_append.mp he with he | he
    · exact ⟨i, List.mem_append_right _ (List.mem_singleton.mpr rfl), Option.mem_toList.mp he⟩
    · obtain ⟨b, hb, hclose⟩ := hends e ((List.dropWhile_sublist _).mem he)
      exact ⟨b, List.mem_append_left _ hb, hclose⟩

/-! ## The guard of a range -/

/-- The way around a range of scenes. -/
def wayAround (insertTransition : Bool) (depth : Nat) (stop : Label) : List Row :=
  (if insertTransition then [⟨depth, .blackScene⟩, ⟨depth, .pause 1000⟩] else []) ++
    [⟨depth, .jump stop⟩]

theorem depth_of_mem_wayAround {insertTransition : Bool} {depth : Nat} {stop : Label} {r : Row}
    (h : r ∈ wayAround insertTransition depth stop) :
    r.depth = depth ∧ r.statement.isHeader = false := by
  unfold wayAround at h
  cases insertTransition with
  | false =>
    obtain rfl := List.mem_singleton.mp h
    exact ⟨rfl, rfl⟩
  | true =>
    simp only [if_true, List.cons_append, List.nil_append, List.mem_cons, List.not_mem_nil,
      or_false] at h
    rcases h with rfl | rfl | rfl <;> exact ⟨rfl, rfl⟩

theorem getLast?_wayAround (insertTransition : Bool) (depth : Nat) (stop : Label) :
    (wayAround insertTransition depth stop).getLast? = some ⟨depth, .jump stop⟩ :=
  List.getLast?_append_of_ne_nil _ (List.cons_ne_nil _ _)

/-- Where a range starts, a guard is written with the way around the range in its block. -/
theorem rows_placeSkipMark_of_start {addr index : Nat} {insertTransition : Bool}
    {stopScript : String} (h : c.skipMark? addr = some (.start index insertTransition stopScript)) :
    (s.placeSkipMark c addr).document.rows
      = s.document.rows ++ ⟨s.document.depth, .ifNotPersistent c.profile.adultSkip.variableName⟩ ::
        wayAround insertTransition (s.document.depth + 1) (.skipEnd stopScript index) := by
  -- the block is filled, so it closes without a further line
  have hfilled : ∀ (d : Document) (b : Bool) outer st, d.scopes = b :: outer →
      (d.statement st).closeScope.rows = d.rows ++ [⟨d.depth, st⟩] := by
    intro d b outer st hd
    rw [Document.rows_closeScope (Document.scopes_statement hd st), Document.rows_statement]
    simp
  unfold State.placeSkipMark
  rw [h]
  cases insertTransition with
  | false =>
    refine (hfilled _ false _ _ rfl).trans ?_
    simp [State.header, State.remark, wayAround]
  | true =>
    refine (hfilled _ true _ _
      (Document.scopes_statement (Document.scopes_statement rfl _) _)).trans ?_
    simp [State.header, State.remark, wayAround]

/-- Without a branch that ends or a label that is set there, only the mark of a range is written
on the way to an instruction. -/
theorem document_arrive (rest : List Instruction) (hclose : i.addr ∉ s.scopeEnds)
    (hlabel : i.addr ∉ s.pendingLabels) :
    (s.arrive c i rest).document = (s.placeSkipMark c i.addr).document := by
  have hpending : ((s.placeSkipMark c i.addr).closeBranches i.addr).pendingLabels
      = s.pendingLabels := congrArg Marks.pending (marks_closeBranches_placeSkipMark s i.addr)
  have hclosed : ((s.placeSkipMark c i.addr).closeBranches i.addr).document
      = (s.placeSkipMark c i.addr).document := by
    unfold State.closeBranches
    rw [scopeEnds_placeSkipMark,
      (closed_of_head?_ne fun hhead => hclose (List.mem_of_mem_head? hhead)).1]
    rfl
  have hlabelled : ((s.placeSkipMark c i.addr).closeBranches i.addr).placeLabel c i.addr
      = (s.placeSkipMark c i.addr).closeBranches i.addr := by
    unfold State.placeLabel
    rw [hpending, if_neg (by simpa using hlabel)]
  unfold State.arrive
  dsimp only
  rw [hlabelled]
  split
  · exact hclosed
  · exact hclosed

/-- A mark at an address that no other mark has is found there. -/
theorem skipMark?_of_range {index : Nat} {range : SkipRange}
    (henabled : c.profile.adultSkip.enabled = true)
    (hmarks : ((skipMarks c.profile.adultSkip c.name).map (·.1)).Nodup)
    (hrange : c.profile.adultSkip.ranges[index]? = some range)
    (hscript : sameIgnoringCase range.start.script c.name = true) :
    c.skipMark? range.start.addr = some (.start index range.start.insertTransition
      (Unicode.toUpper range.stop.script)) := by
  have hmem : (range.start.addr, SkipMark.start index range.start.insertTransition
      (Unicode.toUpper range.stop.script)) ∈ skipMarks c.profile.adultSkip c.name := by
    unfold skipMarks
    rw [if_pos henabled]
    refine List.mem_flatten.mpr ⟨rangeMarks c.name range index, List.mem_map.mpr
      ⟨(range, index), List.mem_zipIdx_iff_getElem?.mpr hrange, rfl⟩, List.mem_append_left _ ?_⟩
    rw [if_pos hscript]
    exact List.mem_singleton.mpr rfl
  obtain ⟨front, behind, heq⟩ := List.append_of_mem (List.mem_reverse.mpr hmem)
  unfold Context.skipMark?
  refine List.lookup_eq_some_iff.mpr ⟨front, behind, heq, fun p hp => ?_⟩
  have hnodup : (((skipMarks c.profile.adultSkip c.name).reverse).map (·.1)).Nodup := by
    rw [List.map_reverse]
    exact List.nodup_reverse.mpr hmarks
  rw [heq, List.map_append, List.nodup_append] at hnodup
  have hne := hnodup.2.2 p.1 (List.mem_map_of_mem hp) range.start.addr (by simp)
  exact bne_iff_ne.mpr fun h => hne h.symm

end Screenplay

open Screenplay

variable {name : String} {script : List UInt8} {profile : Profile} {i : Instruction}
  {rest : List Instruction} {s : State}

/-- What a step of the run leaves behind stays in the document, complete or not. -/
theorem entries_transpile_of_reached
    (h : Reached (scriptContext name script profile) (i :: rest) s) :
    (outcome (step (scriptContext name script profile) s i rest)).document.entries.toList
      <+: (transpile name script profile).document.entries.toList := by
  obtain ⟨before, heq⟩ := Runs.exists_append h
  have hrest : ∀ j ∈ rest, j ∈ (scriptContext name script profile).instructions := by
    intro j hj
    rw [heq]
    exact List.mem_append_right _ (List.mem_cons_of_mem _ hj)
  have hend : ∀ d : Document, d.entries.toList
      <+: ((d.comment .interrupted).statement .reportIncomplete).entries.toList := by
    intro d
    exact (Document.WritesWithin.comment d _).isPrefix.trans
      (Document.WritesWithin.statement _ _).isPrefix
  -- the whole run is the run from here on, which only adds to what the step has written
  obtain ⟨k, hk⟩ := h.runFrom_eq 0
  change scriptRun name script profile = _ at hk
  rw [runFrom] at hk
  cases hstep : step (scriptContext name script profile) s i rest with
  | error halt =>
    rw [hstep] at hk
    rw [(transpile_of_error hk).2]
    exact hend _
  | ok s' =>
    rw [hstep] at hk
    obtain ⟨hok, herror⟩ := entries_runFrom (s := s') (k := k + 1) hrest
    change scriptRun name script profile
      = runFrom (scriptContext name script profile) s' (k + 1) rest at hk
    cases hrun : scriptRun name script profile with
    | ok final =>
      rw [(transpile_of_ok hrun).2]
      exact (hok final (hk.symm.trans hrun)).trans final.document.entries_closeAll
    | error stopped =>
      obtain ⟨stop, halt⟩ := stopped
      rw [(transpile_of_error hrun).2]
      exact (herror stop halt (hk.symm.trans hrun)).trans (hend _)

theorem rows_transpile_of_reached (h : Reached (scriptContext name script profile) (i :: rest) s) :
    ∃ after, (transpile name script profile).document.rows
      = (outcome (step (scriptContext name script profile) s i rest)).document.rows ++ after := by
  obtain ⟨after, heq⟩ := entries_transpile_of_reached h
  refine ⟨after.filterMap Renpy.Entry.row?, ?_⟩
  unfold Document.rows
  rw [← heq, List.filterMap_append]

/-- A complete run comes to every place of the script. -/
theorem exists_reached_of_append (hcomplete : (transpile name script profile).isComplete = true)
    {before : List Instruction}
    (heq : Bytecode.decode profile.version true script = before ++ rest) :
    ∃ s, Reached (scriptContext name script profile) rest s := by
  have hinstructions : (scriptContext name script profile).instructions = before ++ rest := heq
  obtain ⟨final, hrun⟩ := exists_scriptRun_of_isComplete hcomplete
  unfold scriptRun at hrun
  dsimp only at hrun
  rw [hinstructions] at hrun
  obtain ⟨t, k, ht, -⟩ := runs_of_ok hrun
  exact ⟨t, by unfold Reached; rw [hinstructions]; exact ht⟩

/-- A complete run comes to every instruction. -/
theorem exists_reached (hcomplete : (transpile name script profile).isComplete = true)
    (hi : i ∈ Bytecode.decode profile.version true script) :
    ∃ rest s, Reached (scriptContext name script profile) (i :: rest) s := by
  obtain ⟨before, rest, heq⟩ := List.append_of_mem hi
  exact ⟨rest, exists_reached_of_append hcomplete heq⟩

/-- Where no branch closes, no open branch ends. -/
theorem not_mem_scopeEnds (h : Reached (scriptContext name script profile) (i :: rest) s)
    (hclose : ∀ b ∈ Bytecode.decode profile.version true script, b.next ≤ i.addr →
      b.close? ≠ some i.addr) : i.addr ∉ s.scopeEnds := by
  intro hmem
  obtain ⟨before, heq, hends⟩ := Runs.exists_of_mem_scopeEnds h
  obtain ⟨b, hb, hb'⟩ := hends i.addr hmem
  change before ++ i :: rest = Bytecode.decode profile.version true script at heq
  have hpair := (Bytecode.decode_placed profile.version true script).pairwise
  rw [← heq, List.pairwise_append] at hpair
  refine hclose b ?_ (hpair.2.2 b hb i (List.mem_cons_self ..)) hb'
  rw [← heq]
  exact List.mem_append_left _ hb

/-- The guard of a range that starts at an instruction where no branch ends and no jump leads to.
It stands before the lines of the instruction, at their depth; its block leads around the range;
and every way through the document that comes to one of the lines from elsewhere, whatever the
conditions are, comes by the guard. A complete run comes to each instruction, so there the guard
is written.

The lines are those that the step of the instruction writes. If the instruction is the line that
introduces a menu, its speech is not among them: it is written with the menu, behind the guard, and
nothing is said of it here. -/
theorem transpile_skipGuard (name : String) (script : List UInt8) (profile : Profile)
    (henabled : profile.adultSkip.enabled = true)
    (hmarks : ((skipMarks profile.adultSkip (Unicode.toUpper name)).map (·.1)).Nodup)
    {index : Nat} {range : SkipRange} (hrange : profile.adultSkip.ranges[index]? = some range)
    (hscript : sameIgnoringCase range.start.script (Unicode.toUpper name) = true) {i : Instruction}
    (hi : i ∈ Bytecode.decode profile.version true script) (haddr : i.addr = range.start.addr)
    (hend : i.mnemonic ≠ .endOfStream)
    (hclose : ∀ b ∈ Bytecode.decode profile.version true script, b.next ≤ i.addr →
      b.close? ≠ some i.addr)
    (hgoal : ¬IsGoal (Bytecode.decode profile.version true script) i.addr) :
    ((transpile name script profile).isComplete = true →
      ∃ rest s, Reached (scriptContext name script profile) (i :: rest) s) ∧
    ∀ rest s, Reached (scriptContext name script profile) (i :: rest) s →
      ∃ guard body lines after,
        (outcome (step (scriptContext name script profile) s i rest)).document.rows
          = s.document.rows ++ guard :: (body ++ lines) ∧
        (transpile name script profile).document.rows
          = s.document.rows ++ guard :: (body ++ (lines ++ after)) ∧
        guard.statement = .ifNotPersistent profile.adultSkip.variableName ∧
        (∀ r ∈ body, r.depth = guard.depth + 1) ∧
        (∃ r ∈ body.getLast?,
          r.statement = .jump (.skipEnd (Unicode.toUpper range.stop.script) index)) ∧
        (∀ r ∈ lines.head?, r.depth = guard.depth) ∧
        ∀ way : List (List Row), way.IsChain (Goes (transpile name script profile).document.rows) →
          (∀ p ∈ way.head?, p <:+ (transpile name script profile).document.rows ∧
            ¬Among lines after p) →
          (∀ q ∈ way.getLast?, Among lines after q) → way ≠ [] →
          guard :: (body ++ (lines ++ after)) ∈ way := by
  refine ⟨fun hcomplete => exists_reached hcomplete hi, fun rest s hs => ?_⟩
  have hmark : (scriptContext name script profile).skipMark? i.addr = some (.start index
      range.start.insertTransition (Unicode.toUpper range.stop.script)) :=
    haddr ▸ skipMark?_of_range henabled hmarks hrange hscript
  -- on the way to the instruction only the guard is written
  have hdocument := document_arrive (c := scriptContext name script profile) rest
    (not_mem_scopeEnds hs hclose) fun hpending => hgoal (isGoal_of_pending hs hpending)
  have hrows := rows_placeSkipMark_of_start (s := s) hmark
  have hdepth : (s.arrive (scriptContext name script profile) i rest).document.depth
      = s.document.depth := by
    rw [hdocument]
    refine (placeSkipMark_within fun index hstop => ?_).document.depth_eq
    rw [hmark] at hstop
    cases hstop
  obtain ⟨lines, hlines, hdeep, hfirst⟩ :=
    addsWithin_step (scriptContext name script profile) s hend rest
  have hplain := (written_step (scriptContext name script profile) s hend rest).of_rows hlines
  obtain ⟨after, hafter⟩ := rows_transpile_of_reached hs
  rw [hdocument, hrows, List.append_assoc, List.cons_append] at hlines
  rw [hdepth] at hdeep hfirst
  rw [hlines, List.append_assoc, List.cons_append, List.append_assoc] at hafter
  have hlast := getLast?_wayAround range.start.insertTransition (s.document.depth + 1)
    (.skipEnd (Unicode.toUpper range.stop.script) index)
  have hshield : Shield _ s.document.rows _ _ lines after :=
    ⟨hafter, fun r hr => (depth_of_mem_wayAround hr).2, ⟨_, hlast, rfl⟩, hdeep,
      fun r hr => label?_of_statement (hplain r hr)⟩
  exact ⟨_, _, lines, after, hlines, hafter, rfl, fun r hr => (depth_of_mem_wayAround hr).1,
    ⟨_, hlast, rfl⟩, hfirst, fun way hway hstart hto hne => hshield.mem_way hway hstart hto hne⟩

/-- A profile with one range of scenes to skip. -/
def withRange (start stop : RangeMark) : Profile :=
  { adultSkip := { enabled := true, ranges := [⟨start, stop⟩] } }

/-- A branch over two pauses. -/
def pausesInBranch : List UInt8 :=
  [0x01, 3, 1, 0, 0, 0, 8, 0, 0, 0, 0, 0x82, 100, 0, 0, 0x82, 200, 0, 0, 0x0a, 0]

/-- The range from the second pause on, up to some place in another script. -/
def fromSecondPause : Profile :=
  withRange ⟨"a", 15, true⟩ ⟨"b", 40, false⟩

theorem build_pausesInBranch :
    BlockGraph.build (Bytecode.decode fromSecondPause.version true pausesInBranch)
      = ⟨[⟨0, some 11, .conditional, some 11, some 19, [], []⟩,
          ⟨11, some 19, .linear, some 19, none, [], [0]⟩,
          ⟨19, some 21, .leave, none, none, [], [0]⟩]⟩ :=
  BlockGraph.build_eq_of_perm (by decide +kernel) (by decide)

/-- A guard in the block of a branch: the second pause is not reached but through it. -/
theorem skipGuard_of_pausesInBranch :
    ∃ rest s, Reached (scriptContext "a" pausesInBranch fromSecondPause)
        (⟨15, 4, some 130, .sleep, [.int 200]⟩ :: rest) s ∧
      ∃ guard body lines after,
        (transpile "a" pausesInBranch fromSecondPause).document.rows
          = s.document.rows ++ guard :: (body ++ (lines ++ after)) ∧
        guard.statement = .ifNotPersistent "hentai" ∧
        (∀ r ∈ lines.head?, r.depth = guard.depth) ∧
        ∀ way : List (List Row),
          way.IsChain (Goes (transpile "a" pausesInBranch fromSecondPause).document.rows) →
          (∀ p ∈ way.head?, p <:+ (transpile "a" pausesInBranch fromSecondPause).document.rows ∧
            ¬Among lines after p) →
          (∀ q ∈ way.getLast?, Among lines after q) → way ≠ [] →
          guard :: (body ++ (lines ++ after)) ∈ way := by
  have hcomplete : (transpile "a" pausesInBranch fromSecondPause).isComplete = true := by
    rw [(transpile_of_build "a" pausesInBranch fromSecondPause build_pausesInBranch).2]
    decide +kernel
  have hrange : fromSecondPause.adultSkip.ranges[0]?
      = some ⟨⟨"a", 15, true⟩, ⟨"b", 40, false⟩⟩ := rfl
  have hi : ⟨15, 4, some 130, .sleep, [.int 200]⟩
      ∈ Bytecode.decode fromSecondPause.version true pausesInBranch := by
    decide +kernel
  obtain ⟨hreached, hguard⟩ := transpile_skipGuard "a" pausesInBranch fromSecondPause rfl
    (by decide +kernel) hrange (by decide +kernel) hi rfl (by decide) (by decide +kernel)
    (by decide +kernel)
  obtain ⟨rest, s, hs⟩ := hreached hcomplete
  obtain ⟨guard, body, lines, after, -, hrows, hst, -, -, hfirst, hway⟩ := hguard rest s hs
  exact ⟨rest, s, hs, guard, body, lines, after, hrows, hst, hfirst, hway⟩

/-- A branch over a pause, and a pause where the branch ends. -/
def pauseAfterBranch : List UInt8 :=
  [0x01, 3, 1, 0, 0, 0, 4, 0, 0, 0, 0, 0x82, 100, 0, 0, 0x82, 200, 0, 0, 0x0a, 0]

/-- The range of the pause where the branch ends. -/
def fromBranchEnd : Profile :=
  withRange ⟨"a", 15, false⟩ ⟨"a", 19, false⟩

theorem build_pauseAfterBranch :
    BlockGraph.build (Bytecode.decode fromBranchEnd.version true pauseAfterBranch)
      = ⟨[⟨0, some 11, .conditional, some 11, some 15, [], []⟩,
          ⟨11, some 15, .linear, some 15, none, [], [0]⟩,
          ⟨15, some 21, .leave, none, none, [], [0]⟩]⟩ :=
  BlockGraph.build_eq_of_perm (by decide +kernel) (by decide)

/-- A jump over a pause to another one. -/
def pauseAfterJump : List UInt8 :=
  [0x06, 10, 0, 0, 0, 0, 0x82, 100, 0, 0, 0x82, 200, 0, 0, 0x0a, 0]

/-- The range of the pause that the jump leads to. -/
def fromJumpGoal : Profile :=
  withRange ⟨"a", 10, false⟩ ⟨"a", 14, false⟩

theorem build_pauseAfterJump :
    BlockGraph.build (Bytecode.decode fromJumpGoal.version true pauseAfterJump)
      = ⟨[⟨0, some 6, .jump, some 10, none, [], []⟩,
          ⟨6, some 10, .linear, some 10, none, [], []⟩,
          ⟨10, some 16, .leave, none, none, [], [0]⟩]⟩ :=
  BlockGraph.build_eq_of_perm (by decide +kernel) (by decide)

/-- Where a branch ends at the start of a range, the guard is left in the block of the branch, and
passing over the block leads to the pause. Where a jump leads to the start of a range, the guard
stands before the label, and the jump leads to the pause. -/
theorem skipGuard_bypassed :
    (((skipMarks fromBranchEnd.adultSkip "A").map (·.1)) = [15, 19] ∧
      (∃ i ∈ Bytecode.decode .standard true pauseAfterBranch, i.addr = 15 ∧ i.int? 0 = some 200) ∧
      (transpile "a" pauseAfterBranch fromBranchEnd).document.rows.map
          (fun r => (r.depth, r.statement.text))
        = [(0, "label RIO_A:"), (1, "if will_flagbank[1] == 0:"), (2, "pause 0.1"),
            (2, "if not persistent.hentai:"), (3, "jump RIO_A_skip_0_end"), (1, "pause 0.2"),
            (0, "label RIO_A_skip_0_end:"), (1, "return")] ∧
      (Renpy.skipBlock 1 ((transpile "a" pauseAfterBranch fromBranchEnd).document.rows.drop 2)).map
          (fun r => r.statement.text)
        = ["pause 0.2", "label RIO_A_skip_0_end:", "return"]) ∧
    (((skipMarks fromJumpGoal.adultSkip "A").map (·.1)) = [10, 14] ∧
      (∃ i ∈ Bytecode.decode .standard true pauseAfterJump, i.addr = 10 ∧ i.int? 0 = some 200) ∧
      (transpile "a" pauseAfterJump fromJumpGoal).document.rows.map
          (fun r => (r.depth, r.statement.text))
        = [(0, "label RIO_A:"), (1, "jump RIO_A_10"), (1, "pause 0.1"),
            (1, "if not persistent.hentai:"), (2, "jump RIO_A_skip_0_end"), (0, "label RIO_A_10:"),
            (1, "pause 0.2"), (0, "label RIO_A_skip_0_end:"), (1, "return")] ∧
      (Renpy.seek "RIO_A_10" (transpile "a" pauseAfterJump fromJumpGoal).document.rows).map
          (fun r => r.statement.text)
        = ["label RIO_A_10:", "pause 0.2", "label RIO_A_skip_0_end:", "return"]) := by
  refine ⟨⟨by decide +kernel, by decide +kernel, ?_⟩, by decide +kernel, by decide +kernel, ?_⟩
  · rw [(transpile_of_build "a" pauseAfterBranch fromBranchEnd build_pauseAfterBranch).1]
    decide +kernel
  · rw [(transpile_of_build "a" pauseAfterJump fromJumpGoal build_pauseAfterJump).1]
    decide +kernel

end Rio
