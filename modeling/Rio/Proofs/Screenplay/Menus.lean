import Rio.Proofs.Screenplay.Utterances

/-!
# Lines and their menus

Every line of dialogue is said once, in place or under the menu that it introduces. What is said
under a menu comes first there: it is the last line before the menu, unless another menu lies
between (`Introduces`).

> `menu_step`: a step at an option writes a menu, which starts with the line that has waited or with
> no line;
> `written_of_not_option`: no other step writes a menu.

So there is a menu for each option so far (`menus_of_reached`), and which menu is that of an
option can be told by counting (`menu_of_run`). All of this is about any instructions and any
blocks; they need not come from a script.
-/

namespace Rio.Screenplay

open Renpy (Document Line Row Statement)

variable {c : Context} {s s' t : State} {i : Instruction} {rest before : List Instruction}

/-! ## What is said -/

/-- A statement says an utterance. -/
def Utterance.Said (c : Context) (u : Utterance) (st : Statement) : Prop :=
  ∃ (voice : Option String) (l : Line), l.text = c.dialogue u.text ∧ st = .say (u.speech c voice l)

/-- The lines of a document that are not continuations. -/
def speeches (d : Document) : List Statement :=
  d.statements.filter isSpeech

/-- The utterances of instructions. -/
def utterances (l : List Instruction) : List Utterance :=
  l.filterMap Command.utterance?

theorem speeches_eq (d : Document) : speeches d = (lines d).filter isSpeech := by
  unfold speeches lines
  rw [List.filter_filter]
  refine List.filter_congr fun st _ => ?_
  cases st <;> rfl

/-- What has an utterance is dialogue. -/
theorem utterances_dialogue (l : List Instruction) : utterances (dialogue l) = utterances l := by
  unfold utterances dialogue
  rw [List.filterMap_filter]
  refine List.filterMap_congr fun i _ => ?_
  split
  · rfl
  · next hnot =>
    cases hu : Command.utterance? i with
    | none => rfl
    | some u => exact absurd (isDialogue_of_isSay (isSay_of_utterance? hu)) hnot

/-- Statements that voice instructions say their utterances. -/
theorem said_of_voices {told : List Instruction} {said : List Statement}
    (h : List.Forall₂ (Voices c) told said) :
    List.Forall₂ (Utterance.Said c) (utterances told) (said.filter isSpeech) := by
  induction h with
  | nil => exact .nil
  | @cons i st told said hvoices _ ih =>
    unfold utterances at ih ⊢
    cases hvoices with
    | say voice hu htext =>
      rw [List.filterMap_cons_some hu, List.filter_cons_of_pos rfl]
      exact .cons ⟨voice, _, htext, rfl⟩ ih
    | extend hm =>
      have hnone : Command.utterance? i = none := by
        unfold Command.utterance?
        rw [hm]
      rw [List.filterMap_cons_none hnone, List.filter_cons_of_neg Bool.false_ne_true]
      exact ih

theorem isSome_of_voices {told : List Instruction} {said : List Statement}
    (h : List.Forall₂ (Voices c) told said) (hi : i ∈ told) (hsay : i.mnemonic.isSay = true) :
    (Command.utterance? i).isSome = true := by
  induction h with
  | nil => cases hi
  | @cons j st told said hvoices _ ih =>
    rcases List.mem_cons.mp hi with rfl | hi
    · cases hvoices with
      | say voice hu => rw [hu]; rfl
      | extend hm =>
        rw [hm] at hsay
        cases hsay
    · exact ih hi

/-! ## What introduces a menu -/

/-- The last line in `before`, with what comes after it. -/
def LastLine (before : List Instruction) (line : Instruction) (between : List Instruction) : Prop :=
  (∃ earlier, before = earlier ++ line :: between) ∧ line.mnemonic.isSay = true ∧
    ∀ k ∈ between, k.mnemonic.isSay = false

/-- The line that introduces a menu: the last one before it, if no other menu lies between. -/
def Introduces (before : List Instruction) (line : Instruction) : Prop :=
  ∃ between, LastLine before line between ∧ ∀ k ∈ between, k.mnemonic ≠ .option

theorem Introduces.isSay {line : Instruction} (h : Introduces before line) :
    line.mnemonic.isSay = true := by
  obtain ⟨between, hlast, -⟩ := h
  exact hlast.2.1

/-- There is one last line. -/
theorem LastLine.unique {line line' : Instruction} {between between' : List Instruction}
    (h : LastLine before line between) (h' : LastLine before line' between') :
    line = line' ∧ between = between' := by
  -- of two lines the later one lies behind the other, which is then not the last
  have hlater : ∀ {line line' : Instruction} {more between between' : List Instruction},
      line :: between = more ++ line' :: between' → (∀ k ∈ between, k.mnemonic.isSay = false) →
      line'.mnemonic.isSay = true → line = line' ∧ between = between' := by
    intro line line' more between between' heq hsilent hsay
    cases more with
    | nil => exact List.cons.inj heq
    | cons _ more =>
      have hmem : line' ∈ between := by
        rw [(List.cons.inj heq).2]
        exact List.mem_append_right _ List.mem_cons_self
      rw [hsilent line' hmem] at hsay
      cases hsay
  obtain ⟨⟨earlier, heq⟩, hsay, hsilent⟩ := h
  obtain ⟨⟨earlier', heq'⟩, hsay', hsilent'⟩ := h'
  rcases List.append_eq_append_iff.mp (heq.symm.trans heq') with ⟨more, -, hmore⟩ | ⟨more, -, hmore⟩
  · exact hlater hmore hsilent hsay'
  · obtain ⟨hline, hbetween⟩ := hlater hmore hsilent' hsay
    exact ⟨hline.symm, hbetween.symm⟩

/-- What lies between a line and the menu that it waits for is no line. -/
theorem not_isSay_of_menuFollows {between : List Instruction}
    (hfollows : menuFollows (between ++ rest) = true)
    (hnone : ∀ k ∈ between, k.mnemonic ≠ .option) : ∀ k ∈ between, k.mnemonic.isSay = false := by
  induction between with
  | nil =>
    intro k hk
    cases hk
  | cons j between ih =>
    obtain ⟨hj, hlater⟩ := menuFollows_of_cons hfollows (hnone j List.mem_cons_self)
    intro k hk
    rcases List.mem_cons.mp hk with rfl | hk
    · exact hj
    · exact ih hlater (fun k' hk' => hnone k' (List.mem_cons_of_mem _ hk')) k hk

/-- The line that waits at a menu is the one that introduces it, if lines are moved. -/
theorem waiting_iff_introduces (hoption : i.mnemonic = .option) {line : Instruction} :
    Waiting c before (i :: rest) line ↔ c.profile.moveSayIntoMenu = true ∧
      Introduces before line := by
  constructor
  · intro h
    obtain ⟨earlier, between, heq, hwaits, hnone⟩ := h
    obtain ⟨hmove, hsay, hfollows⟩ := waitsForMenu_iff.mp hwaits
    exact ⟨hmove, between, ⟨⟨earlier, heq⟩, hsay, not_isSay_of_menuFollows hfollows hnone⟩, hnone⟩
  · intro h
    obtain ⟨hmove, between, ⟨⟨earlier, heq⟩, hsay, hsilent⟩, hnone⟩ := h
    refine ⟨earlier, between, heq, waitsForMenu_iff.mpr ⟨hmove, hsay, ?_⟩, hnone⟩
    rw [menuFollows_append fun k hk => ⟨hsilent k hk, hnone k hk⟩, menuFollows, hoption]
    rfl

/-! ## Menus -/

/-- The header of a menu. -/
def isMenu : Statement → Bool
  | .menu => true
  | _ => false

theorem countP_isMenu_eq_zero {l : List Statement} (h : ∀ st ∈ l, isMenu st = false) :
    l.countP isMenu = 0 :=
  List.countP_eq_zero.mpr fun st hst => by simp [h st hst]

/-- Saying a line writes it and nothing else. -/
theorem statements_speak (h : speak c s i = .ok s') :
    ∃ st, s'.document.statements = s.document.statements ++ [st] ∧ Voices c i st := by
  have hacts : Acts c (fun st => isLine st = true) s s' := speak_acts (fun _ => rfl) h
  obtain ⟨added, hadded, hlines⟩ := hacts.written
  have hspeech : ∃ st, Says c (fun _ => True) s s' [(i, st)] := says_speak h
  obtain ⟨st, hsays⟩ := hspeech
  have hone : added = [st] := by
    have heq := hsays.lines
    unfold lines at heq
    rw [hadded, List.filter_append, List.filter_eq_self.mpr hlines] at heq
    exact List.append_cancel_left heq
  exact ⟨st, by rw [hadded, hone], hsays.voices (i, st) (List.mem_singleton.mpr rfl)⟩

/-- A choice, on condition if its flag may be used, and the jump under it. -/
theorem statements_offer (s : State) (o : MenuOption) (found : FlagAccess) :
    (offer c s o found).document.statements = s.document.statements ++
      [.choice (c.dialogue o.text) found.reference?, .jump (.script (c.scriptName o.target))] := by
  have hshown : ∀ (t : State) condition, t.document.statements = s.document.statements →
      (((t.header (.choice (c.dialogue o.text) condition)).emit
        (.jump (.script (c.scriptName o.target)))).closeScope).document.statements
          = s.document.statements ++
            [.choice (c.dialogue o.text) condition, .jump (.script (c.scriptName o.target))] := by
    intro t condition ht
    show (((t.document.header (.choice (c.dialogue o.text) condition)).statement
        _).closeScope).rows.map _ = _
    rw [Document.rows_closeScope (Document.scopes_statement rfl _), ← ht]
    simp [Document.statements]
  have hremark : ∀ r, (s.remark r).document.statements = s.document.statements :=
    fun r => s.document.statements_comment r
  have hremarks : ∀ r r', ((s.remark r).remark r').document.statements = s.document.statements :=
    fun r r' => (Document.statements_comment _ r').trans (hremark r)
  cases found with
  | granted reference => exact hshown s _ rfl
  | excluded => exact hshown _ _ (hremark _)
  | hinted reference => exact hshown _ _ (hremarks _ _)
  | unmapped => exact hshown _ _ (hremarks _ _)

/-- There is always something under a menu: where it has no choices, `pass`. -/
theorem length_lt_choices (choices : List MenuOption) {outer : List Bool}
    (hscopes : s.document.scopes = false :: outer) :
    s.document.statements.length
      < (choices.foldl (choice c) s).closeScope.document.statements.length := by
  cases choices with
  | nil =>
    show _ < (s.document.closeScope.rows.map (·.statement)).length
    rw [Document.rows_closeScope hscopes]
    simp [Document.statements]
  | cons o choices =>
    have hfirst := statements_offer (c := c) s o (flagAccess c.profile o.flag)
    have hlater : Acts c (fun _ => True) (choice c s o)
        (choices.foldl (choice c) (choice c s o)).closeScope :=
      choices_acts (fun _ _ => trivial) (fun _ => trivial) trivial choices _
    have hle := hlater.written.isPrefix.length_le
    have hlength : (choice c s o).document.statements.length
        = s.document.statements.length + 2 := by
      unfold choice
      rw [hfirst, List.length_append]
      rfl
    rw [List.foldl_cons]
    omega

/-- A menu starts with the line that has waited for it, or with no line. -/
theorem menu_opening {choices : List MenuOption}
    (hmove : c.profile.moveSayIntoMenu = false → s.held = none) (h : menu c s choices = .ok s') :
    ∃ first added, s'.document.statements = s.document.statements ++ .menu :: first :: added ∧
      (∀ st ∈ first :: added, isMenu st = false) ∧
      (∀ line, s.held = some line → Voices c line first) ∧
        (s.held = none → isSpeech first = false) := by
  have hchoices : ∀ t : State, Written (fun st => isMenu st = false ∧ isSpeech st = false) t
      (choices.foldl (choice c) t).closeScope := fun t =>
    (choices_acts (c := c) (P := fun st => isMenu st = false ∧ isSpeech st = false)
      (fun _ _ => ⟨rfl, rfl⟩)
      (fun _ => ⟨rfl, rfl⟩) ⟨rfl, rfl⟩ choices t).written
  have hopen : (s.header .menu).document.statements = s.document.statements ++ [.menu] :=
    s.document.statements_header .menu
  rcases menu_cases hmove h with ⟨hheld, rfl⟩ | ⟨line, t, hheld, hspeak, rfl⟩
  · obtain ⟨added, hadded, hplain⟩ := hchoices (s.header .menu)
    -- without a line the block still has a statement: a choice, or `pass`
    have hlength := length_lt_choices (c := c) (s := s.header .menu) choices rfl
    cases added with
    | nil =>
      rw [hadded, List.append_nil] at hlength
      exact absurd hlength (Nat.lt_irrefl _)
    | cons first added =>
      refine ⟨first, added, ?_, fun st hst => (hplain st hst).1, fun line hline => ?_, fun _ => ?_⟩
      · rw [hadded, hopen, List.append_assoc]
        rfl
      · cases hheld.symm.trans hline
      · exact (hplain first List.mem_cons_self).2
  · obtain ⟨first, hfirst, hvoices⟩ := statements_speak hspeak
    obtain ⟨added, hadded, hplain⟩ := hchoices t
    have hspeech : isMenu first = false := by cases hvoices <;> rfl
    refine ⟨first, added, ?_, ?_, ?_, ?_⟩
    · change t.document.statements = (s.header .menu).document.statements ++ [first] at hfirst
      rw [hadded, hfirst, hopen, List.append_assoc, List.append_assoc]
      rfl
    · intro st hst
      rcases List.mem_cons.mp hst with rfl | hst
      · exact hspeech
      · exact (hplain st hst).1
    · intro line' hline'
      rw [← Option.some.inj (hheld.symm.trans hline')]
      exact hvoices
    · intro hnone
      cases hheld.symm.trans hnone

/-! ## Steps and runs -/

theorem allowedBefore_isMenu (c : Context) : AllowedBefore c fun st => isMenu st = false where
  pass := rfl
  skip := fun _ st hst => by
    cases st with
    | menu => cases hst
    | _ => rfl
  label := fun _ => rfl

/-- What is written on the way to the command of an instruction is no menu. -/
theorem written_announce_arrive (hi : i ∈ c.instructions) (rest : List Instruction) (s : State) :
    Written (fun st => isMenu st = false) s (announce c (s.arrive c i rest) i) := by
  have hacts : Acts c (fun st => isMenu st = false) s (announce c (s.arrive c i rest) i) :=
    announce_arrive_acts (allowedBefore_isMenu c) hi rest
  exact hacts.written

/-- A step at an option writes a menu. It starts with the line that has waited, or with no line. -/
theorem menu_step (hi : i ∈ c.instructions) (hoption : i.mnemonic = .option)
    (hmove : c.profile.moveSayIntoMenu = false → s.held = none) (h : step c s i rest = .ok s') :
    ∃ lead first added, s'.document.statements = s.document.statements ++ lead
      ++ .menu :: first :: added ∧
      (∀ st ∈ lead, isMenu st = false) ∧ (∀ st ∈ first :: added, isMenu st = false) ∧
      (∀ line, s.held = some line → Voices c line first) ∧
        (s.held = none → isSpeech first = false) := by
  cases stepped_of_ok h with
  | ending hend =>
    rw [hoption] at hend
    cases hend
  | unhandled _ hread => exact absurd hoption (untold_of_unhandled hread).1
  | @command command _ _ hread hexec =>
    have hheld : (announce c (s.arrive c i rest) i).held = s.held := by
      have hmemory := congrArg Memory.held (memory_announce_arrive (c := c) s i rest)
      rw [waitsForMenu_of_not_isSay (by rw [hoption]; rfl)] at hmemory
      exact hmemory
    have hfrom := isFrom_of_command hread
    rw [hoption] at hfrom
    cases command with
    | menu choices =>
      obtain ⟨lead, hlead, hplain⟩ := written_announce_arrive hi rest s
      obtain ⟨first, added, heq, hmenus, hline, hnone⟩ :=
        menu_opening (fun h => hheld.trans (hmove h)) hexec
      rw [hheld] at hline hnone
      exact ⟨lead, first, added, by rw [heq, hlead], hplain, hmenus, hline, hnone⟩
    | _ => cases hfrom

theorem isMenu_of_writes {command : Command} {m : Mnemonic} {st : Statement}
    (hfrom : command.isFrom m = true) (hne : m ≠ .option) (h : command.writes st = true) :
    isMenu st = false := by
  cases st with
  | menu =>
    cases command with
    | menu choices => exact absurd (mnemonic_of_menu hfrom) hne
    | _ => cases h
  | _ => rfl

/-- No other step writes a menu. -/
theorem written_of_not_option (hi : i ∈ c.instructions) (hne : i.mnemonic ≠ .option)
    (h : step c s i rest = .ok s') : Written (fun st => isMenu st = false) s s' := by
  cases stepped_of_ok h with
  | ending => exact .closeBranches_placeLabel (P := fun st => isMenu st = false) rfl rfl s
  | unhandled =>
    have harrive : Acts c (fun st => isMenu st = false) s (s.arrive c i rest) :=
      arrive_acts (allowedBefore_isMenu c) hi rest
    exact (harrive.remark _).written
  | command _ hread hexec =>
    have hexecute : Acts c (fun st => isMenu st = false) (announce c (s.arrive c i rest) i) s' :=
      execute_acts (fun st hst => isMenu_of_writes (isFrom_of_command hread) hne hst)
        (fun _ _ _ => rfl) hexec
    exact (written_announce_arrive hi rest s).trans hexecute.written

/-- A run that does not halt says its lines in their order. -/
theorem voices_of_run (hrun : runFrom c (start c) 0 c.instructions = .ok t) :
    List.Forall₂ (Voices c) (spoken c none c.instructions) (lines t.document) := by
  obtain ⟨between, told, htold⟩ := (told_start c).runs (runs_of_runFrom hrun)
  have horder := htold.order
  rw [spoken, List.append_nil] at horder
  rw [← horder, htold.lines, List.forall₂_map_left_iff, List.forall₂_map_right_iff,
    List.forall₂_same]
  exact htold.voices

/-- So far there is a menu for each option. -/
theorem menus_of_reached (h : Reached c rest s) :
    ∃ before told, Told c before rest told s ∧
      s.document.statements.countP isMenu = before.countP (·.mnemonic == .option) := by
  induction h with
  | here => exact ⟨[], [], told_start c, rfl⟩
  | @step i rest t t' _ hstep ih =>
    obtain ⟨before, told, htold, hcount⟩ := ih
    obtain ⟨said, htold', -⟩ := htold.step hstep
    refine ⟨before ++ [i], told ++ said, htold', ?_⟩
    rw [List.countP_append, ← hcount]
    by_cases hoption : i.mnemonic = .option
    · obtain ⟨lead, first, added, heq, hlead, hadded, -⟩ :=
        menu_step htold.next_mem hoption htold.held_eq_none hstep
      rw [heq, List.countP_append, List.countP_append, countP_isMenu_eq_zero hlead,
        List.countP_cons_of_pos rfl, countP_isMenu_eq_zero hadded]
      simp [hoption]
    · have hsame := (written_of_not_option htold.next_mem hoption hstep).filter_eq
      rw [List.countP_eq_length_filter, hsame, ← List.countP_eq_length_filter]
      simp [hoption]

/-- The menu of an option is the one with as many menus before it as there are options before the
option. It starts with the line that introduces it if lines are moved, and otherwise with no
line. -/
theorem menu_of_run (heq : c.instructions = before ++ i :: rest) (hoption : i.mnemonic = .option)
    (hrun : runFrom c (start c) 0 c.instructions = .ok t) :
    ∃ front first behind, t.document.statements = front ++ .menu :: first :: behind ∧
      front.countP isMenu = before.countP (·.mnemonic == .option) ∧
      (isSpeech first = true ↔ c.profile.moveSayIntoMenu = true ∧ ∃ line, Introduces before line) ∧
      ∀ line, c.profile.moveSayIntoMenu = true → Introduces before line → Voices c line first := by
  rw [heq] at hrun
  obtain ⟨s, k, hs, hrest⟩ := runs_of_ok hrun
  obtain ⟨s', hstep, hlater⟩ := exists_step_of_ok hrest
  rw [← heq] at hs
  obtain ⟨before', told, htold, hcount⟩ := menus_of_reached hs
  obtain rfl : before' = before := List.append_cancel_right (htold.instructions.symm.trans heq)
  obtain ⟨lead, first, added, hadded, hlead, -, hline, hnone⟩ :=
    menu_step htold.next_mem hoption htold.held_eq_none hstep
  -- what comes later is written behind the menu
  have haligned := (hs.aligned (aligned_start c)).step hstep
  obtain ⟨more, hmore, -⟩ := (runs_of_runFrom hlater).adds haligned
  have hwaits : ∀ line, s.held = some line ↔ c.profile.moveSayIntoMenu = true ∧
      Introduces before' line :=
    fun line => (htold.held line).trans (waiting_iff_introduces hoption)
  refine ⟨s.document.statements ++ lead, first, added ++ more.map (·.statement), ?_, ?_, ?_, ?_⟩
  · unfold Document.statements at hadded ⊢
    rw [hmore, List.map_append, hadded]
    simp
  · rw [List.countP_append, countP_isMenu_eq_zero hlead, hcount]
    rfl
  · constructor
    · intro hspeech
      cases hheld : s.held with
      | none =>
        rw [hnone hheld] at hspeech
        cases hspeech
      | some line =>
        obtain ⟨hmove, hintroduces⟩ := (hwaits line).mp hheld
        exact ⟨hmove, line, hintroduces⟩
    · intro h
      obtain ⟨hmove, line, hintroduces⟩ := h
      rw [(hline line ((hwaits line).mpr ⟨hmove, hintroduces⟩)).isSpeech_eq]
      exact hintroduces.isSay
  · intro line hmove hintroduces
    exact hline line ((hwaits line).mpr ⟨hmove, hintroduces⟩)

/-- The menu of an option, in its rows. -/
theorem exists_menu_rows {d : Document} {front behind : List Statement} {first : Statement}
    (h : d.statements = front ++ .menu :: first :: behind) (hindented : Renpy.WellIndented d.rows) :
    ∃ rows menu r rows', d.rows = rows ++ menu :: r :: rows' ∧ rows.map (·.statement) = front ∧
      menu.statement = .menu ∧ r.statement = first ∧ r.depth = menu.depth + 1 := by
  obtain ⟨rows, later, hrows, hfront, hlater⟩ := List.map_eq_append_iff.mp h
  obtain ⟨menu, later', rfl, hmenu, hlater'⟩ := List.map_eq_cons_iff.mp hlater
  obtain ⟨r, rows', rfl, hr, -⟩ := List.map_eq_cons_iff.mp hlater'
  rw [hrows] at hindented
  obtain ⟨r', hr', hdepth⟩ := hindented.deeper (by rw [hmenu]; rfl)
  obtain rfl := Option.some.inj hr'
  exact ⟨rows, menu, r, rows', hrows, hfront, hmenu, hr, hdepth⟩

/-- A complete screenplay says every line once, and has a menu for each option. If lines are moved
into menus, the menu of an option starts with the last line before it exactly if no other option
lies between, and otherwise with no line at all. -/
theorem ofInstructions_dialogue (name : String) (l : List Instruction) (graph : BlockGraph)
    (profile : Profile) (hcomplete : (ofInstructions name l graph profile).isComplete = true) :
    (∀ i ∈ l, i.mnemonic.isSay = true → (Command.utterance? i).isSome = true) ∧
    List.Forall₂ (Utterance.Said ⟨profile, Unicode.toUpper name, l, graph⟩)
      (utterances (spoken ⟨profile, Unicode.toUpper name, l, graph⟩ none l))
      (speeches (ofInstructions name l graph profile).document) ∧
    (utterances (spoken ⟨profile, Unicode.toUpper name, l, graph⟩ none l)).Perm (utterances l) ∧
    (ofInstructions name l graph profile).document.statements.countP isMenu
      = l.countP (·.mnemonic == .option) ∧
    ∀ before i rest, l = before ++ i :: rest → i.mnemonic = .option →
      ∃ front menu first behind,
        (ofInstructions name l graph profile).document.rows = front ++ menu :: first :: behind ∧
        front.countP (isMenu ·.statement) = before.countP (·.mnemonic == .option) ∧
        menu.statement = .menu ∧ first.depth = menu.depth + 1 ∧
        (isSpeech first.statement = true ↔
          profile.moveSayIntoMenu = true ∧ ∃ line, Introduces before line) ∧
        ∀ line between, LastLine before line between →
          (Voices ⟨profile, Unicode.toUpper name, l, graph⟩ line first.statement ↔
            profile.moveSayIntoMenu = true ∧ ∀ k ∈ between, k.mnemonic ≠ .option) := by
  obtain ⟨t, hrun, hdocument⟩ := exists_run_of_isComplete hcomplete
  have hreached := (reached_of_run ⟨profile, Unicode.toUpper name, l, graph⟩).1 t hrun
  have hvoices := voices_of_run (c := ⟨profile, Unicode.toUpper name, l, graph⟩) hrun
  have hperm : (spoken ⟨profile, Unicode.toUpper name, l, graph⟩ none l).Perm (dialogue l) :=
    spoken_perm l fun j hj => (by cases hj)
  rw [hdocument]
  refine ⟨fun i hi hsay => ?_, ?_, ?_, ?_, fun before i rest heq hoption => ?_⟩
  · have hmem := hperm.mem_iff.mpr (List.mem_filter.mpr ⟨hi, isDialogue_of_isSay hsay⟩)
    exact isSome_of_voices hvoices hmem hsay
  · have hspeeches : speeches t.document.closeAll = (lines t.document).filter isSpeech :=
      (t.document.filter_closeAll rfl).trans (speeches_eq t.document)
    rw [hspeeches]
    exact said_of_voices hvoices
  · rw [← utterances_dialogue l]
    exact hperm.filterMap _
  · obtain ⟨before, told, htold, hcount⟩ := menus_of_reached hreached
    have hall : l = before := htold.instructions.trans (List.append_nil _)
    rw [List.countP_eq_length_filter, t.document.filter_closeAll rfl,
      ← List.countP_eq_length_filter, hcount, hall]
  · obtain ⟨front, first, behind, hstatements, hcount, hspeech, hline⟩ :=
      menu_of_run heq hoption hrun
    -- the menu is found among the statements; its depth comes from the script being well indented
    obtain ⟨hindented, hdepth⟩ := (hreached.aligned (aligned_start _)).indented.closeAll
    obtain ⟨n, hclosed⟩ := t.document.statements_closeAll
    rw [hstatements, List.append_assoc, List.cons_append, List.cons_append] at hclosed
    obtain ⟨rows, menu, r, rows', hrows, rfl, hmenu, rfl, hdeeper⟩ :=
      exists_menu_rows hclosed (hindented.wellIndented hdepth)
    refine ⟨rows, menu, r, rows', hrows, ?_, hmenu, hdeeper, hspeech, fun line between hlast => ?_⟩
    · rw [← hcount, List.countP_map]
      rfl
    · constructor
      · intro hvoice
        have hfirst : isSpeech r.statement = true := by
          rw [hvoice.isSpeech_eq]
          exact hlast.2.1
        obtain ⟨hmove, line', between', hlast', hnone⟩ := hspeech.mp hfirst
        -- the last line before the menu is one and the same
        rw [(hlast.unique hlast').2]
        exact ⟨hmove, hnone⟩
      · intro h
        exact hline line h.1 ⟨between, hlast, h.2⟩

/-- A line of a character, a line, and two menus of which the second one has no choices. -/
def lineAndTwoMenus : List Instruction :=
  [⟨0, 10, some 0x42, .textC, [.int 0, .bytes [0x62], .bytes [0x61]]⟩,
    ⟨10, 7, some 0x41, .textN, [.int 0, .bytes [0x63]]⟩,
    ⟨17, 13, some 2, .option, [.options [⟨0, [0x78], 0, 1, 0, [0x62]⟩]]⟩,
    ⟨30, 3, some 2, .option, [.options []]⟩]

/-- Both lines are said once, the second one under the first menu. The second menu starts with no
line. -/
theorem dialogue_of_lineAndTwoMenus :
    (ofInstructions "a" lineAndTwoMenus ⟨[]⟩ {}).isComplete = true ∧
    (ofInstructions "a" lineAndTwoMenus ⟨[]⟩ {}).document.rows.map (·.statement.text)
      = ["label RIO_A:", "\"b\" \"a\"", "menu:", "\"c\"", "\"x\" if will_flagbank[1]:",
          "jump RIO_B", "menu:", "pass"] ∧
    (∃ uttered, List.Forall₂ (Utterance.Said ⟨{}, Unicode.toUpper "a", lineAndTwoMenus, ⟨[]⟩⟩)
      uttered
        (speeches (ofInstructions "a" lineAndTwoMenus ⟨[]⟩ {}).document) ∧
      uttered.Perm [⟨some [0x62], [0x61]⟩, ⟨none, [0x63]⟩]) ∧
    (∃ front menu first behind,
      (ofInstructions "a" lineAndTwoMenus ⟨[]⟩ {}).document.rows
        = front ++ menu :: first :: behind ∧
      front.countP (isMenu ·.statement) = 0 ∧
      Voices ⟨{}, Unicode.toUpper "a", lineAndTwoMenus, ⟨[]⟩⟩
        ⟨10, 7, some 0x41, .textN, [.int 0, .bytes [0x63]]⟩
        first.statement) ∧
    ∃ front menu first behind,
      (ofInstructions "a" lineAndTwoMenus ⟨[]⟩ {}).document.rows
        = front ++ menu :: first :: behind ∧
      front.countP (isMenu ·.statement) = 1 ∧
      ¬Voices ⟨{}, Unicode.toUpper "a", lineAndTwoMenus, ⟨[]⟩⟩
        ⟨10, 7, some 0x41, .textN, [.int 0, .bytes [0x63]]⟩
        first.statement := by
  have hcomplete : (ofInstructions "a" lineAndTwoMenus ⟨[]⟩ {}).isComplete
      = true := by decide +kernel
  obtain ⟨-, hsaid, hperm, -, hmenus⟩ :=
    ofInstructions_dialogue "a" lineAndTwoMenus ⟨[]⟩ {} hcomplete
  obtain ⟨front, menu, first, behind, hrows, hcount, -, -, -, hline⟩ :=
    hmenus (lineAndTwoMenus.take 2) _ (lineAndTwoMenus.drop 3) rfl rfl
  obtain ⟨front', menu', first', behind', hrows', hcount', -, -, -, hline'⟩ :=
    hmenus (lineAndTwoMenus.take 3) _ [] rfl rfl
  refine ⟨hcomplete, by decide +kernel, ⟨_, hsaid, hperm⟩,
    ⟨front, menu, first, behind, hrows, hcount, ?_⟩, front', menu', first', behind', hrows',
      hcount', ?_⟩
  · exact (hline _ [] ⟨⟨lineAndTwoMenus.take 1, rfl⟩, rfl, by decide⟩).mpr ⟨rfl, by decide⟩
  · intro hvoices
    have hlast : LastLine (lineAndTwoMenus.take 3)
        ⟨10, 7, some 0x41, .textN, [.int 0, .bytes [0x63]]⟩ ((lineAndTwoMenus.drop 2).take 1) :=
      ⟨⟨lineAndTwoMenus.take 1, rfl⟩, rfl, by decide⟩
    exact ((hline' _ _ hlast).mp hvoices).2 _ List.mem_cons_self rfl

end Rio.Screenplay
