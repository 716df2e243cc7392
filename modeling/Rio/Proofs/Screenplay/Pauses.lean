import Rio.Proofs.BlockGraph.Queries
import Rio.Proofs.Screenplay.Utterances

/-!
# Where the delays of pauses go

A pause is written at its own place, unless the line before it appears letter by letter: such a
line takes the pause over. The line looks ahead for it, to the end of its block and, behind a
branch on the player not skipping, to the end of the next one. What it finds is the next pause,
and neither a line nor a menu comes between (`pauseFollows_of_followingPause?`), so no two lines
take over the same pause.

When the pause is reached, the run leaves it out if a line has taken it over already. But a line
that waits for a menu behind the pause takes it over too late: the pause has been written by then.
`transpile_pauses` says that a complete screenplay has each delay once, or twice in this case, of
which `pause_doubled` is an example.
-/

namespace Rio.Bytecode.Placed

/-! ## Instructions of a block -/

variable {stop : Nat} {l before after : List Instruction} {i : Instruction}

theorem le_addr_of_mem_dropWhile {x : Nat} (h : l.Pairwise fun k k' => k.next ≤ k'.addr) :
    ∀ k ∈ l.dropWhile (fun k => k.addr < x), x ≤ k.addr := by
  have hsorted : l.Pairwise fun k k' => k.addr ≤ k'.addr :=
    h.imp fun hle => Nat.le_trans (Nat.le_add_right _ _) hle
  intro k hk
  rw [dropWhile_eq_filter (pairwise_addr_lt hsorted x)] at hk
  simpa using (List.mem_filter.mp hk).2

/-- What has the address of an instruction and comes before it is a marker. -/
theorem dropWhile_addr (h : Placed stop 0 l) (heq : l = before ++ i :: after) :
    ∃ marks, l.dropWhile (fun k => k.addr < i.addr) = marks ++ i :: after ∧
      ∀ k ∈ marks, k.addr = i.addr ∧ ¬k.IsProper := by
  have hpair := h.pairwise
  rw [heq, List.pairwise_append] at hpair
  refine ⟨before.dropWhile fun k => k.addr < i.addr, ?_, fun k hk => ?_⟩
  · rw [heq, List.dropWhile_append]
    split
    · next hempty =>
      rw [List.isEmpty_iff.mp hempty, List.dropWhile_cons_of_neg (by simp)]
      rfl
    · rfl
  · have hkbefore : k ∈ before := (List.dropWhile_suffix _).subset hk
    have hnext : k.next ≤ i.addr := hpair.2.2 k hkbefore i (List.mem_cons_self ..)
    have hge := le_addr_of_mem_dropWhile hpair.1 k hk
    unfold Instruction.next at hnext
    refine ⟨by omega, fun hproper => ?_⟩
    have hpos := h.len_pos k (heq ▸ List.mem_append_left _ hkbefore) hproper
    omega

theorem eq_of_addr_eq {j : Instruction} (h : Placed stop 0 l) (hi : i ∈ l) (hj : j ∈ l)
    (hproper : i.IsProper) (hproper' : j.IsProper) (haddr : i.addr = j.addr) : i = j := by
  obtain ⟨front, back, rfl⟩ := List.append_of_mem hi
  have hpos := h.len_pos i hi hproper
  have hpos' := h.len_pos j hj hproper'
  have hpair := h.pairwise
  rw [List.pairwise_append, List.pairwise_cons] at hpair
  rcases List.mem_append.mp hj with hj | hj
  · have hnext := hpair.2.2 j hj i (List.mem_cons_self ..)
    unfold Instruction.next at hnext
    omega
  · rcases List.mem_cons.mp hj with rfl | hj
    · rfl
    · have hnext := hpair.2.1.1 j hj
      unfold Instruction.next at hnext
      omega

/-- An instruction has one place. -/
theorem append_cons_inj {j : Instruction} {before' after' : List Instruction} (h : Placed stop 0 l)
    (hproper : j.IsProper) (heq : l = before ++ j :: after) (heq' : l = before' ++ j :: after') :
    before = before' := by
  have hnot : ∀ front back, l = front ++ j :: back → j ∉ front := by
    intro front back hsplit hmem
    have hpair := h.pairwise
    rw [hsplit, List.pairwise_append] at hpair
    have hnext := hpair.2.2 j hmem j (List.mem_cons_self ..)
    have hpos := h.len_pos j (hsplit ▸ List.mem_append_right _ (List.mem_cons_self ..)) hproper
    unfold Instruction.next at hnext
    omega
  rcases List.append_eq_append_iff.mp (heq.symm.trans heq')
    with ⟨more, hmore, hj⟩ | ⟨more, hmore, hj⟩
  · cases more with
    | nil => rw [hmore, List.append_nil]
    | cons k more =>
      cases hj
      exact absurd (hmore ▸ List.mem_append_right _ (List.mem_cons_self ..)) (hnot _ _ heq')
  · cases more with
    | nil => rw [hmore, List.append_nil]
    | cons k more =>
      cases hj
      exact absurd (hmore ▸ List.mem_append_right _ (List.mem_cons_self ..)) (hnot _ _ heq)

end Rio.Bytecode.Placed

namespace Rio.Screenplay

open Renpy (Statement)

variable {c : Context} {s s' t : State} {i j : Instruction} {l rest before : List Instruction}
  {stop : Nat}

/-! ## Looking for a pause -/

theorem searchPause_eq_found (h : searchPause l = .found j) :
    ∃ between later, l = between ++ j :: later ∧ j.mnemonic = .sleep ∧
      ∀ k ∈ between, k.mnemonic.isDialogue = false ∧ k.mnemonic ≠ .sleep := by
  unfold searchPause at h
  split at h
  · cases h
  · next k hfind =>
    split at h
    · next hsleep =>
      cases h
      obtain ⟨-, between, later, rfl, hnone⟩ := List.find?_eq_some_iff_append.mp hfind
      refine ⟨between, later, rfl, beq_iff_eq.mp hsleep, fun k hk => ?_⟩
      simpa using hnone k hk
    · cases h

theorem searchPause_eq_neither (h : searchPause l = .neither) :
    ∀ k ∈ l, k.mnemonic.isDialogue = false ∧ k.mnemonic ≠ .sleep := by
  unfold searchPause at h
  split at h
  · next hfind =>
    intro k hk
    simpa using List.find?_eq_none.mp hfind k hk
  · split at h <;> cases h

/-- Markers are nothing to the search. -/
theorem searchPause_of_dialogue {marks after : List Instruction}
    (hmarks : ∀ k ∈ marks, ¬k.IsProper) (hi : i.mnemonic.isDialogue = true) :
    searchPause (marks ++ i :: after) = .dialogue := by
  have hnone : marks.find? (fun k => k.mnemonic.isDialogue || k.mnemonic == .sleep) = none := by
    refine List.find?_eq_none.mpr fun k hk => ?_
    rcases not_and_or.mp (hmarks k hk) with hm | hm
    · rw [not_not.mp hm]
      nofun
    · rw [not_not.mp hm]
      nofun
  have hsleep : (i.mnemonic == .sleep) = false := by
    rw [beq_eq_false_iff_ne]
    rintro hm
    rw [hm] at hi
    cases hi
  unfold searchPause
  rw [List.find?_append, hnone, Option.none_or, List.find?_cons_of_pos (by rw [hi]; rfl)]
  dsimp only
  rw [hsleep]
  rfl

/-- A pause follows a line: nothing comes between them that is said, waits or offers a choice. -/
def PauseFollows (l : List Instruction) (i j : Instruction) : Prop :=
  ∃ before between later, l = before ++ i :: (between ++ j :: later) ∧ j.mnemonic = .sleep ∧
    ∀ k ∈ between, k.mnemonic.isDialogue = false ∧ k.mnemonic ≠ .sleep ∧ k.mnemonic ≠ .option

theorem flow?_of_option (h : i.mnemonic = .option) : i.flow? ≠ none := by
  unfold Instruction.flow?
  rw [h]
  nofun

/-- Before the last instruction of a block there is no menu in it. -/
theorem ne_option_of_block (hl : Bytecode.Placed stop 0 l) {b : Block}
    (hb : b ∈ (BlockGraph.build l).blocks) {x : Nat} (hx : b.exit = some x)
    {front between behind : List Instruction} (heq : l = front ++ (between ++ j :: behind))
    (hentry : ∀ k ∈ between, b.entry ≤ k.addr) (hlt : j.addr < x) :
    ∀ k ∈ between, k.mnemonic ≠ .option := by
  intro k hk hoption
  have hmem : k ∈ l := heq ▸ List.mem_append_right _ (List.mem_append_left _ hk)
  have hexit := BlockGraph.exit_le_next hl hmem (flow?_of_option hoption) hb hx (hentry k hk)
  have hpair := hl.pairwise
  rw [heq, List.pairwise_append, List.pairwise_append] at hpair
  have hnext := hpair.2.1.2.2 k hk j (List.mem_cons_self ..)
  omega

theorem addr_lt_of_mem_takeWhile {x : Nat} (h : j ∈ l.takeWhile fun k => k.addr < x) :
    j.addr < x := by
  have htrue := List.mem_takeWhile_imp h
  exact of_decide_eq_true htrue

/-- A pause in the block of the line. -/
theorem pauseFollows_of_found {after : List Instruction} (hl : Bytecode.Placed stop 0 l)
    (heq : l = before ++ i :: after) {b : Block} (hb : b ∈ (BlockGraph.build l).blocks) {x : Nat}
    (hx : b.exit = some x) (hentry : b.entry ≤ i.addr)
    (hfound : searchPause (after.takeWhile fun k => k.addr < x) = .found j) :
    PauseFollows l i j := by
  obtain ⟨between, later, hahead, hsleep, hsilent⟩ := searchPause_eq_found hfound
  have hlt : j.addr < x := by
    apply addr_lt_of_mem_takeWhile (l := after)
    rw [hahead]
    exact List.mem_append_right _ (List.mem_cons_self ..)
  rw [← List.takeWhile_append_dropWhile (p := fun k : Instruction => decide (k.addr < x))
    (l := after), hahead, List.append_assoc, List.cons_append] at heq
  have hmenu : ∀ k ∈ between, k.mnemonic ≠ .option := by
    have hpair := hl.pairwise
    rw [heq, List.pairwise_append, List.pairwise_cons] at hpair
    refine ne_option_of_block hl hb hx (heq.trans (List.append_cons ..)) (fun k hk => ?_) hlt
    have hnext := hpair.2.1.1 k (List.mem_append_left _ hk)
    unfold Instruction.next at hnext
    omega
  exact ⟨before, between, _, heq, hsleep,
    fun k hk => ⟨(hsilent k hk).1, (hsilent k hk).2, hmenu k hk⟩⟩

/-- A pause in the block that is entered from the block of the line by a branch. -/
theorem pauseFollows_of_found_next {first second : List Instruction} (hl : Bytecode.Placed stop 0 l)
    (heq : l = before ++ i :: (first ++ second)) {b b' : Block}
    (hb : b ∈ (BlockGraph.build l).blocks) (hb' : b' ∈ (BlockGraph.build l).blocks) {y : Nat}
    (hx : b.exit = some b'.entry) (hentry : b.entry ≤ i.addr)
    (hsilent : ∀ k ∈ first, k.mnemonic.isDialogue = false ∧ k.mnemonic ≠ .sleep)
    {guard : Instruction} (hguard : first.getLast? = some guard) (hbranch : guard.mnemonic = .jeq)
    (hguardlt : guard.addr < b'.entry) (hsecond : ∀ k ∈ second, b'.entry ≤ k.addr)
    (hy : b'.exit = some y)
    (hfound : searchPause (second.takeWhile fun k => k.addr < y) = .found j) :
    PauseFollows l i j := by
  obtain ⟨between, later, hahead, hsleep, hsilent'⟩ := searchPause_eq_found hfound
  obtain ⟨front, hfront⟩ := List.getLast?_eq_some_iff.mp hguard
  have hmem : ∀ k ∈ between ++ [j], k ∈ second.takeWhile fun k => k.addr < y := by
    intro k hk
    rw [hahead, List.append_cons]
    exact List.mem_append_left _ hk
  have hpair := hl.pairwise
  rw [heq, List.pairwise_append, List.pairwise_cons] at hpair
  -- the menu would end the first block
  have hmenu : ∀ k ∈ first, k.mnemonic ≠ .option := by
    have hsplit : l = (before ++ [i]) ++ (front ++ guard :: second) := by
      rw [heq, hfront]
      simp
    have hfrontmenu := ne_option_of_block hl hb hx hsplit (fun k hk => ?_) hguardlt
    · intro k hk
      rw [hfront] at hk
      rcases List.mem_append.mp hk with hk | hk
      · exact hfrontmenu k hk
      · rw [List.mem_singleton.mp hk, hbranch]
        nofun
    · have hnext := hpair.2.1.1 k (by rw [hfront]; simp [hk])
      unfold Instruction.next at hnext
      omega
  have hsecondeq : second = between ++ j :: (later ++ second.dropWhile fun k => k.addr < y) := by
    rw [← List.cons_append, ← List.append_assoc, ← hahead, List.takeWhile_append_dropWhile]
  have hsplit : l = before ++ i :: ((first ++ between) ++ j ::
      (later ++ second.dropWhile fun k => k.addr < y)) := by
    rw [heq, List.append_assoc, ← hsecondeq]
  have hmenu' : ∀ k ∈ between, k.mnemonic ≠ .option := by
    have hsplit' : l = (before ++ i :: first) ++ (between ++ j ::
        (later ++ second.dropWhile fun k => k.addr < y)) := by
      rw [hsplit]
      simp
    refine ne_option_of_block hl hb' hy hsplit' (fun k hk => ?_) ?_
    · exact hsecond k ((List.takeWhile_prefix _).subset (hmem k (List.mem_append_left _ hk)))
    · exact addr_lt_of_mem_takeWhile (hmem j (by simp))
  refine ⟨before, first ++ between, _, hsplit, hsleep, fun k hk => ?_⟩
  rcases List.mem_append.mp hk with hk | hk
  · exact ⟨(hsilent k hk).1, (hsilent k hk).2, hmenu k hk⟩
  · exact ⟨(hsilent' k hk).1, (hsilent' k hk).2, hmenu' k hk⟩

/-- The two places where a pause is found. -/
theorem followingPause?_eq_some {addr : Nat} (h : followingPause? c addr = some j) :
    ∃ b, c.graph.blockContaining? addr = some b ∧
      (searchPause ((b.instructionsFrom c.instructions addr).drop 1) = .found j ∨
        searchPause ((b.instructionsFrom c.instructions addr).drop 1) = .neither ∧
          ∃ guard b', (b.instructionsFrom c.instructions addr).getLast? = some guard ∧
            guard.mnemonic = .jeq ∧ b.kind = .conditional ∧
              b.trueTarget.bind c.graph.blockAt? = some b' ∧
            searchPause (b'.instructions c.instructions) = .found j) := by
  unfold followingPause? at h
  obtain ⟨b, hblock, hsearch⟩ := Option.bind_eq_some_iff.mp h
  refine ⟨b, hblock, ?_⟩
  dsimp only at hsearch
  split at hsearch
  · next k hfound =>
    obtain rfl := Option.some.inj hsearch
    exact .inl hfound
  · cases hsearch
  · next hneither =>
    -- the block says nothing of a pause: the search goes on behind a guard that ends it
    obtain ⟨guard, hguard, hsearch⟩ := Option.bind_eq_some_iff.mp hsearch
    split at hsearch
    · next hcond =>
      rw [Bool.and_eq_true, beq_iff_eq, isSkipGuard, Bool.and_eq_true, Bool.and_eq_true,
        beq_iff_eq] at hcond
      obtain ⟨target, htarget, hsearch⟩ := Option.bind_eq_some_iff.mp hsearch
      obtain ⟨b', hnext, hsearch⟩ := Option.bind_eq_some_iff.mp hsearch
      split at hsearch
      · next k hfound =>
        obtain rfl := Option.some.inj hsearch
        refine .inr ⟨hneither, guard, b', hguard, hcond.2.1.1, hcond.1, ?_, hfound⟩
        rw [htarget]
        exact hnext
      · cases hsearch
    · cases hsearch

/-- The rest of a block from an instruction on. -/
theorem instructionsFrom_addr {after : List Instruction} (hl : Bytecode.Placed stop 0 l)
    (heq : l = before ++ i :: after) {b : Block} {x : Nat} (hx : b.exit = some x)
    (hentry : b.entry ≤ i.addr) (hlt : i.addr < x) :
    ∃ marks, b.instructionsFrom l i.addr = marks ++ i :: after.takeWhile (fun k => k.addr < x) ∧
      ∀ k ∈ marks, ¬k.IsProper := by
  obtain ⟨marks, hmarks, hmark⟩ := hl.dropWhile_addr heq
  refine ⟨marks, ?_, fun k hk => (hmark k hk).2⟩
  unfold Block.instructionsFrom
  rw [hx]
  dsimp only
  rw [Nat.max_eq_left hentry, hmarks, List.takeWhile_append_of_pos, List.takeWhile_cons_of_pos]
  · exact decide_eq_true hlt
  · intro k hk
    rw [(hmark k hk).1]
    exact decide_eq_true hlt

/-- A block that starts behind an instruction. -/
theorem instructions_behind {after : List Instruction} (hl : Bytecode.Placed stop 0 l)
    (heq : l = before ++ i :: after) {b : Block} {y : Nat} (hy : b.exit = some y)
    (hlt : i.addr < b.entry) :
    b.instructions l = (after.dropWhile fun k => k.addr < b.entry).takeWhile
      fun k => k.addr < y := by
  have hpair := hl.pairwise
  rw [heq, List.pairwise_append] at hpair
  unfold Block.instructions Block.instructionsFrom
  rw [hy]
  dsimp only
  rw [Nat.max_self, heq, List.append_cons, List.dropWhile_append_of_pos]
  intro k hk
  rcases List.mem_append.mp hk with hk | hk
  · have hle := hpair.2.2 k hk i (List.mem_cons_self ..)
    unfold Instruction.next at hle
    exact decide_eq_true (by omega)
  · rw [List.mem_singleton.mp hk]
    exact decide_eq_true hlt

/-- What a line finds when it looks ahead is the next pause. -/
theorem pauseFollows_of_followingPause? (hl : Bytecode.Placed stop 0 c.instructions)
    (hgraph : c.graph = BlockGraph.build c.instructions) (hi : i ∈ c.instructions)
    (hsay : i.mnemonic.isSay = true) (h : followingPause? c i.addr = some j) :
    PauseFollows c.instructions i j := by
  obtain ⟨before, after, heq⟩ := List.append_of_mem hi
  obtain ⟨b, hblock, hsearch⟩ := followingPause?_eq_some h
  rw [hgraph] at hblock hsearch
  have htiles := BlockGraph.tiles_build hl
  obtain ⟨hb, hcontains⟩ := htiles.blockContaining?_eq_some_iff.mp hblock
  obtain ⟨x, hx, -⟩ := htiles.bounds b hb
  obtain ⟨hentry, hlt⟩ := (BlockGraph.contains_iff hx).mp hcontains
  obtain ⟨marks, hrest, hmarks⟩ := instructionsFrom_addr hl heq hx hentry hlt
  rw [hrest] at hsearch
  cases marks with
  | cons m marks =>
    -- behind a marker the line finds itself
    have hself : searchPause (((m :: marks) ++ i :: after.takeWhile fun k => k.addr < x).drop 1)
        = .dialogue :=
      searchPause_of_dialogue (fun k hk => hmarks k (List.mem_cons_of_mem _ hk))
        (isDialogue_of_isSay hsay)
    rw [hself] at hsearch
    rcases hsearch with hfound | ⟨hneither, -⟩
    · cases hfound
    · cases hneither
  | nil =>
    rw [List.nil_append, List.drop_one, List.tail_cons] at hsearch
    rcases hsearch with hfound | ⟨hneither, guard, b', hguard, hbranch, hkind, hnext, hfound⟩
    · exact pauseFollows_of_found hl heq hb hx hentry hfound
    · obtain ⟨j, -, target, -, hexit, htrue, -⟩ := BlockGraph.exists_branch_of_conditional hb hkind
      rw [htrue, ← hexit, hx] at hnext
      obtain ⟨hb', rfl⟩ := htiles.blockAt?_eq_some_iff.mp hnext
      obtain ⟨y, hy, -⟩ := htiles.bounds b' hb'
      have hlast : (after.takeWhile fun k => k.addr < b'.entry).getLast? = some guard := by
        rw [List.getLast?_cons] at hguard
        cases hahead : (after.takeWhile fun k => k.addr < b'.entry).getLast? with
        | some k =>
          rw [hahead] at hguard
          exact hguard
        | none =>
          rw [hahead] at hguard
          obtain rfl : i = guard := Option.some.inj hguard
          rw [hbranch] at hsay
          cases hsay
      rw [instructions_behind hl heq hy hlt] at hfound
      have hpair := hl.pairwise
      rw [heq, List.pairwise_append, List.pairwise_cons] at hpair
      rw [← List.takeWhile_append_dropWhile (p := fun k : Instruction => decide (k.addr < b'.entry))
        (l := after)] at heq
      exact pauseFollows_of_found_next hl heq hb hb' hx hentry
        (searchPause_eq_neither hneither) hlast
        hbranch (addr_lt_of_mem_takeWhile (List.mem_of_getLast? hlast))
        (Bytecode.Placed.le_addr_of_mem_dropWhile hpair.2.1.2) hy hfound

/-! ## Who takes over a pause -/

theorem isProper_of_isDialogue (h : i.mnemonic.isDialogue = true) : i.IsProper := by
  constructor
  · intro hm
    rw [hm] at h
    cases h
  · intro hm
    rw [hm] at h
    cases h

theorem isProper_of_sleep (h : i.mnemonic = .sleep) : i.IsProper := by
  unfold Instruction.IsProper
  rw [h]
  exact ⟨nofun, nofun⟩

theorem nodup_dialogue (hl : Bytecode.Placed stop 0 l) : (dialogue l).Nodup := by
  refine (hl.pairwise.filter _).imp_of_mem fun {k k'} hk _ hnext heq => ?_
  obtain ⟨hmem, hdialogue⟩ := List.mem_filter.mp hk
  have hpos := hl.len_pos k hmem (isProper_of_isDialogue hdialogue)
  rw [← heq] at hnext
  unfold Instruction.next at hnext
  omega

theorem takes_iff {p : Instruction × Statement} :
    takes c j p = true ↔ ∃ speech, p.2 = .say speech ∧ speech.line.reveal.isSome = true ∧
      followingPause? c p.1.addr = some j := by
  obtain ⟨i, st⟩ := p
  cases st with
  | say speech => simp [takes]
  | _ => simp [takes]

/-- The line before a pause, with what comes between. -/
structure LineBefore (before : List Instruction) (i : Instruction) (between : List Instruction) :
    Prop where
  isSay : i.mnemonic.isSay = true
  split : ∃ earlier, before = earlier ++ i :: between
  silent : ∀ k ∈ between, k.mnemonic.isDialogue = false ∧ k.mnemonic ≠ .option

namespace LineBefore

variable {between : List Instruction}

theorem getLast?_dialogue (h : LineBefore before i between) :
    (dialogue before).getLast? = some i := by
  obtain ⟨earlier, rfl⟩ := h.split
  have hnone : dialogue between = [] :=
    List.filter_eq_nil_iff.mpr fun k hk => by rw [(h.silent k hk).1]; nofun
  have hi : dialogue (i :: between) = [i] := by
    rw [dialogue_cons, if_pos (isDialogue_of_isSay h.isSay), hnone]
    rfl
  unfold dialogue at hi ⊢
  rw [List.filter_append, hi, List.getLast?_append]
  rfl

/-- It waits at the pause exactly if it waits for a menu behind it. -/
theorem waiting_iff (h : LineBefore before i between) (hsleep : j.mnemonic = .sleep) :
    Waiting c before (j :: rest) i ↔ c.profile.moveSayIntoMenu = true ∧
      menuFollows rest = true := by
  have hpause : menuFollows (j :: rest) = menuFollows rest := by
    rw [menuFollows, hsleep]
    rfl
  constructor
  · intro hwaiting
    obtain ⟨hmove, -, hfollows⟩ := hwaiting.menuFollows
    exact ⟨hmove, hpause ▸ hfollows⟩
  · rintro ⟨hmove, hfollows⟩
    obtain ⟨earlier, heq⟩ := h.split
    refine ⟨earlier, between, heq, ?_, fun k hk => (h.silent k hk).2⟩
    have hsilent : ∀ k ∈ between, k.mnemonic.isSay = false ∧ k.mnemonic ≠ .option :=
      fun k hk => (h.silent k hk).imp_left isSay_of_not_isDialogue
    rw [waitsForMenu_iff, menuFollows_append hsilent, hpause]
    exact ⟨hmove, h.isSay, hfollows⟩

end LineBefore

section Takers

variable (hl : Bytecode.Placed stop 0 c.instructions)
  (hgraph : c.graph = BlockGraph.build c.instructions)
include hl hgraph

theorem isSay_and_pauseFollows_of_takes {p : Instruction × Statement} (hvoices : Voices c p.1 p.2)
    (hmem : p.1 ∈ c.instructions) (htakes : takes c j p = true) :
    p.1.mnemonic.isSay = true ∧ PauseFollows c.instructions p.1 j := by
  obtain ⟨speech, hsay, -, hpause⟩ := takes_iff.mp htakes
  have hp : p.1.mnemonic.isSay = true := by
    rw [← hvoices.isSpeech_eq, hsay]
    rfl
  exact ⟨hp, pauseFollows_of_followingPause? hl hgraph hmem hp hpause⟩

/-- Who takes over a pause is the line before it. -/
theorem lineBefore_of_takes {p : Instruction × Statement} (hvoices : Voices c p.1 p.2)
    (hmem : p.1 ∈ c.instructions) (htakes : takes c j p = true)
    (heq : c.instructions = before ++ j :: rest) :
    ∃ between, LineBefore before p.1 between := by
  obtain ⟨hp, earlier, between, later, hsplit, hsleep, hsilent⟩ :=
    isSay_and_pauseFollows_of_takes hl hgraph hvoices hmem htakes
  have hproper : j.IsProper := isProper_of_sleep hsleep
  rw [← List.cons_append, ← List.append_assoc] at hsplit
  exact ⟨between, hp, ⟨earlier, hl.append_cons_inj hproper heq hsplit⟩,
    fun k hk => ⟨(hsilent k hk).1, (hsilent k hk).2.2⟩⟩

/-- It has not told its line at the pause exactly if it waits there for a menu. -/
theorem mem_told_iff {told more : List (Instruction × Statement)}
    (h : Told c before (j :: rest) told s) (hsleep : j.mnemonic = .sleep)
    (hnodup : ((told ++ more).map (·.1)).Nodup) {p : Instruction × Statement}
    (hvoices : Voices c p.1 p.2) (hmem : p.1 ∈ c.instructions) (hp : p ∈ told ++ more)
    (htakes : takes c j p = true) :
    p ∈ told ↔ ¬(c.profile.moveSayIntoMenu = true ∧ menuFollows rest = true) := by
  obtain ⟨between, hline⟩ := lineBefore_of_takes hl hgraph hvoices hmem htakes h.instructions
  rw [← hline.waiting_iff hsleep, ← h.held]
  have hbefore : p.1 ∈ dialogue before := List.mem_of_getLast? hline.getLast?_dialogue
  have hdistinct : (told.map (·.1) ++ s.held.toList).Nodup := by
    have hall := nodup_dialogue hl
    rw [h.instructions, dialogue_append, List.nodup_append] at hall
    exact h.perm.nodup_iff.mpr hall.1
  constructor
  · intro htold hheld
    have hdisjoint := (List.nodup_append.mp hdistinct).2.2
    exact hdisjoint p.1 (List.mem_map_of_mem htold) p.1
      (by rw [hheld]; exact List.mem_singleton.mpr rfl) rfl
  · intro hheld
    rcases List.mem_append.mp (h.perm.mem_iff.mpr hbefore) with htold | hwaits
    · obtain ⟨q, hq, hqp⟩ := List.mem_map.mp htold
      rw [← List.inj_on_of_nodup_map hnodup (List.mem_append_left _ hq) hp hqp]
      exact hq
    · exact absurd (Option.mem_toList.mp hwaits) hheld

/-- No two lines take over the same pause. -/
theorem takers_eq {all : List (Instruction × Statement)} (hvoices : ∀ p ∈ all, Voices c p.1 p.2)
    (hmem : ∀ p ∈ all, p.1 ∈ c.instructions) (hnodup : (all.map (·.1)).Nodup)
    (heq : c.instructions = before ++ j :: rest) {p : Instruction × Statement} (hp : p ∈ all)
    (htakes : takes c j p = true) : all.filter (takes c j) = [p] := by
  have hone : ∀ q ∈ all.filter (takes c j), q = p := by
    intro q hq
    obtain ⟨hq, hq'⟩ := List.mem_filter.mp hq
    obtain ⟨between, hline⟩ := lineBefore_of_takes hl hgraph (hvoices p hp) (hmem p hp) htakes heq
    obtain ⟨between', hline'⟩ := lineBefore_of_takes hl hgraph (hvoices q hq) (hmem q hq) hq' heq
    exact List.inj_on_of_nodup_map hnodup hq hp
      (Option.some.inj (hline'.getLast?_dialogue.symm.trans hline.getLast?_dialogue))
  have hdistinct : (all.filter (takes c j)).Nodup := hnodup.of_map.filter _
  have hmemp : p ∈ all.filter (takes c j) := List.mem_filter.mpr ⟨hp, htakes⟩
  have hcopies := List.eq_replicate_of_mem hone
  rw [hcopies, List.nodup_replicate] at hdistinct
  have hlength : (all.filter (takes c j)).length = 1 :=
    Nat.le_antisymm hdistinct (List.length_pos_of_mem hmemp)
  rw [hcopies, hlength]
  rfl

end Takers

/-! ## What a run remembers of pauses -/

/-- A run remembers the pauses ahead that the lines so far have taken over. -/
theorem told_reached (hl : Bytecode.Placed stop 0 c.instructions) (h : Reached c rest s) :
    ∃ before told, Told c before rest told s ∧ ∀ j ∈ rest, j.mnemonic = .sleep →
      (j.addr ∈ s.inlinedPauses ↔
        ∃ p ∈ told, ∃ k, takes c k p = true ∧ (k.int? 0).isSome = true ∧ k.addr = j.addr) := by
  induction h with
  | here =>
    refine ⟨[], [], told_start c, fun j _ _ => ?_⟩
    simp [start]
  | @step i rest t t' _ hstep ih =>
    obtain ⟨before, told, htold, hpauses⟩ := ih
    obtain ⟨said, htold', hspoke⟩ := htold.step hstep
    refine ⟨before ++ [i], told ++ said, htold', fun j hj hsleep => ?_⟩
    have hfree : i.mnemonic = .sleep → j.addr ≠ i.addr := by
      intro hi
      have hpair := hl.pairwise
      rw [htold.instructions, List.pairwise_append, List.pairwise_cons] at hpair
      have hnext := hpair.2.1.1 j hj
      have hpos := hl.len_pos i (by rw [htold.instructions]; simp) (isProper_of_sleep hi)
      unfold Instruction.next at hnext
      omega
    rw [hspoke.pauses j.addr hfree, hpauses j (List.mem_cons_of_mem _ hj) hsleep]
    simp only [List.mem_append, or_and_right, exists_or]

/-- At a pause the run knows whether a line has taken it over. -/
theorem mem_inlinedPauses_iff (hl : Bytecode.Placed stop 0 c.instructions)
    (hgraph : c.graph = BlockGraph.build c.instructions) (h : Reached c (j :: rest) s)
    (hsleep : j.mnemonic = .sleep) (hms : (j.int? 0).isSome = true) :
    ∃ before told, Told c before (j :: rest) told s ∧
      (j.addr ∈ s.inlinedPauses ↔ ∃ p ∈ told, takes c j p = true) := by
  obtain ⟨before, told, htold, hpauses⟩ := told_reached hl h
  refine ⟨before, told, htold, (hpauses j (List.mem_cons_self ..) hsleep).trans ?_⟩
  constructor
  · rintro ⟨p, hp, k, htakes, -, haddr⟩
    obtain ⟨-, earlier, between, later, hsplit, hk, -⟩ := isSay_and_pauseFollows_of_takes hl hgraph
      (htold.voices p hp) (htold.mem_instructions p hp) htakes
    have hkj : k = j := by
      refine hl.eq_of_addr_eq ?_ ?_ (isProper_of_sleep hk) (isProper_of_sleep hsleep) haddr
      · rw [hsplit]
        simp
      · rw [htold.instructions]
        simp
    exact ⟨p, hp, hkj ▸ htakes⟩
  · rintro ⟨p, hp, htakes⟩
    exact ⟨p, hp, j, htakes, hms, rfl⟩

/-- How the delay of a pause comes into a document, by what is written at its own place and by the
lines that take it over. -/
inductive Delayed (c : Context) (rest : List Instruction) (ms : Int)
    (takers : List (Instruction × Statement)) (arrived : State) : State → Prop where
  | written : takers = [] → Delayed c rest ms takers arrived (arrived.emit (.pause ms))
  /-- It comes with a line, and there is a comment in its own place. -/
  | inlined {i : Instruction} {speech : Renpy.Speech} {pauses : List Nat} :
      takers = [(i, .say speech)] →
      speech.line.reveal.bind (·.pause) = some ms →
      ¬(c.profile.moveSayIntoMenu = true ∧ menuFollows rest = true) →
      Delayed c rest ms takers arrived
        ({ arrived with inlinedPauses := pauses }.remark .pauseInlined)
  /-- It comes with a line that waits for a menu behind it, and is written in its own place too. -/
  | doubled {i : Instruction} {speech : Renpy.Speech} : takers = [(i, .say speech)] →
      speech.line.reveal.bind (·.pause) = some ms →
      c.profile.moveSayIntoMenu = true → menuFollows rest = true →
      Delayed c rest ms takers arrived (arrived.emit (.pause ms))

/-- The pause of a line is the one that it takes over. -/
theorem pause_of_takes {p : Instruction × Statement} {ms : Int} (hvoices : Voices c p.1 p.2)
    (htakes : takes c j p = true) (hms : j.int? 0 = some ms) :
    ∃ speech, p = (p.1, .say speech) ∧ speech.line.reveal.bind (·.pause) = some ms := by
  obtain ⟨speech, hsay, hreveal, hpause⟩ := takes_iff.mp htakes
  obtain ⟨reveal, hreveal⟩ := Option.isSome_iff_exists.mp hreveal
  refine ⟨speech, Prod.ext rfl hsay, ?_⟩
  rw [hsay] at hvoices
  rw [hreveal]
  cases hvoices with
  | say voice hu htext htaken =>
    rw [line_utteranceSpeech] at hreveal
    rw [Option.bind_some, htaken reveal hreveal, hpause]
    exact hms

theorem step_sleep {ms : Int} (hsleep : j.mnemonic = .sleep) (hms : j.int? 0 = some ms) :
    step c s j rest = sleep (announce c (s.arrive c j rest) j) j (some ms) := by
  have hread : Reading.ofInstruction j = .command (.sleep (some ms)) := by
    simp only [Reading.ofInstruction, hsleep, hms]
  rw [step_of_ne_end (isProper_of_sleep hsleep).2, dispatch, hread]
  rfl

/-- What comes of a pause when a run reaches it. -/
theorem delayed_step {ms : Int} {told more : List (Instruction × Statement)}
    (hl : Bytecode.Placed stop 0 c.instructions)
    (hgraph : c.graph = BlockGraph.build c.instructions) (htold : Told c before (j :: rest) told s)
    (hinlined : j.addr ∈ s.inlinedPauses ↔ ∃ p ∈ told, takes c j p = true)
    (hvoices : ∀ p ∈ told ++ more, Voices c p.1 p.2)
    (hmem : ∀ p ∈ told ++ more, p.1 ∈ c.instructions) (hnodup : ((told ++ more).map (·.1)).Nodup)
    (hsleep : j.mnemonic = .sleep) (hms : j.int? 0 = some ms) :
    ∃ s', step c s j rest = .ok s' ∧ Delayed c rest ms ((told ++ more).filter (takes c j))
      (announce c (s.arrive c j rest) j) s' := by
  have hpauses : (announce c (s.arrive c j rest) j).inlinedPauses = s.inlinedPauses :=
    congrArg Memory.inlinedPauses (memory_announce_arrive s j rest)
  rw [step_sleep hsleep hms]
  have hwritten : j.addr ∉ s.inlinedPauses →
      sleep (announce c (s.arrive c j rest) j) j (some ms)
        = .ok ((announce c (s.arrive c j rest) j).emit (.pause ms)) := by
    intro hnot
    rw [sleep, hpauses, if_neg (by simpa using hnot)]
  have hremarked : j.addr ∈ s.inlinedPauses →
      sleep (announce c (s.arrive c j rest) j) j (some ms)
        = .ok ({ announce c (s.arrive c j rest) j with
            inlinedPauses := s.inlinedPauses.filter (· != j.addr) }.remark .pauseInlined) := by
    intro hin
    rw [sleep, hpauses, if_pos (by simpa using hin)]
  -- by whether a line of the whole tale takes the pause over, and whether that line is told already
  by_cases hany : ∃ p ∈ told ++ more, takes c j p = true
  · obtain ⟨p, hp, htakes⟩ := hany
    have hfilter := takers_eq hl hgraph hvoices hmem hnodup htold.instructions hp htakes
    obtain ⟨speech, hspeech, hpause⟩ := pause_of_takes (hvoices p hp) htakes hms
    rw [hspeech] at hfilter
    have hearly : ∀ q ∈ told ++ more, takes c j q = true →
        (q ∈ told ↔ ¬(c.profile.moveSayIntoMenu = true ∧ menuFollows rest = true)) :=
      fun q hq hq' => mem_told_iff hl hgraph htold hsleep hnodup (hvoices q hq) (hmem q hq) hq hq'
    by_cases hlate : c.profile.moveSayIntoMenu = true ∧ menuFollows rest = true
    · -- the line is still to be told
      refine ⟨_, hwritten ?_, .doubled hfilter hpause hlate.1 hlate.2⟩
      rw [hinlined]
      rintro ⟨q, hq, hq'⟩
      exact (hearly q (List.mem_append_left _ hq) hq').mp hq hlate
    · have hin : j.addr ∈ s.inlinedPauses :=
        hinlined.mpr ⟨p, (hearly p hp htakes).mpr hlate, htakes⟩
      exact ⟨_, hremarked hin, .inlined hfilter hpause hlate⟩
  · refine ⟨_, hwritten ?_, .written ?_⟩
    · rw [hinlined]
      rintro ⟨p, hp, htakes⟩
      exact hany ⟨p, List.mem_append_left _ hp, htakes⟩
    · exact List.filter_eq_nil_iff.mpr fun p hp htakes => hany ⟨p, hp, htakes⟩

end Rio.Screenplay

namespace Rio

open Screenplay

/-- The delay of each pause in a complete screenplay. It is written at the place of the pause if
no line takes it over; otherwise it comes with one line, and is written as well exactly if a menu
that the line waits for is behind the pause. -/
theorem transpile_pauses (name : String) (script : List UInt8) (profile : Profile)
    (hcomplete : (transpile name script profile).isComplete = true) :
    ((tale (scriptContext name script profile) (transpile name script profile).document).map (·.2)
        = lines (transpile name script profile).document ∧
      ∀ p ∈ tale (scriptContext name script profile) (transpile name script profile).document,
        Voices (scriptContext name script profile) p.1 p.2) ∧
    ∀ j ∈ Bytecode.decode profile.version true script, j.mnemonic = .sleep →
      ∃ ms rest s s' after, j.int? 0 = some ms ∧
        Reached (scriptContext name script profile) (j :: rest) s ∧
        step (scriptContext name script profile) s j rest = .ok s' ∧
        (transpile name script profile).document.rows = s'.document.rows ++ after ∧
        Delayed (scriptContext name script profile) rest ms
          ((tale (scriptContext name script profile)
            (transpile name script profile).document).filter
            (takes (scriptContext name script profile) j))
          (announce (scriptContext name script profile)
            (s.arrive (scriptContext name script profile) j rest) j)
          s' := by
  have hl : Bytecode.Placed script.length 0 (scriptContext name script profile).instructions :=
    Bytecode.decode_placed profile.version true script
  constructor
  · obtain ⟨told, htale, -, hlines, hvoices⟩ := tale_transpile hcomplete .here (told_start _)
    rw [htale]
    exact ⟨hlines, hvoices⟩
  · intro j hj hsleep
    obtain ⟨ms, hms⟩ : ∃ ms, j.int? 0 = some ms := by
      have hneeds := Bytecode.decode_meets profile.version script j hj
      exact Option.isSome_iff_exists.mp
        (isSome_of_sleep hneeds (by simp only [Reading.ofInstruction, hsleep]))
    obtain ⟨rest, s, hs⟩ := exists_reached hcomplete hj
    obtain ⟨before, told, htold, hinlined⟩ :=
      mem_inlinedPauses_iff hl rfl hs hsleep (by rw [hms]; rfl)
    -- the tale of the script is what was told before the pause, and more
    obtain ⟨more, htale, horder, -, hvoices⟩ := tale_transpile hcomplete hs htold
    have hperm : ((told ++ more).map (·.1)).Perm
        (dialogue (scriptContext name script profile).instructions) :=
      horder ▸ spoken_perm _ fun j hj => (by cases hj)
    have hmem : ∀ p ∈ told ++ more, p.1 ∈ (scriptContext name script profile).instructions :=
      fun p hp => (List.mem_filter.mp (hperm.mem_iff.mp (List.mem_map_of_mem hp))).1
    obtain ⟨s', hstep, hdelayed⟩ := delayed_step hl rfl htold hinlined hvoices hmem
      (hperm.nodup_iff.mpr (nodup_dialogue hl)) hsleep hms
    obtain ⟨after, hrows⟩ := rows_transpile_of_reached hs
    rw [hstep] at hrows
    rw [htale]
    exact ⟨ms, rest, s, s', after, hms, hs, hstep, hrows, hdelayed⟩

/-- The delays in a document: pauses, and those that come with lines. -/
def delays (d : Renpy.Document) : List Int :=
  d.statements.filterMap fun
    | .pause ms => some ms
    | .say speech => speech.line.reveal.bind (·.pause)
    | _ => none

/-- A line that appears letter by letter and two pauses. -/
def revealedLine : List UInt8 :=
  [0x03, 1, 0xe1, 3, 0, 100, 0, 0, 0x41, 0, 0, 0, 0x61, 0, 0x82, 100, 0, 0, 0x82, 200, 0, 0]

/-- The line takes over the first pause only. -/
theorem pauses_of_revealedLine :
    ((Bytecode.decode .standard true revealedLine).filter (·.mnemonic == .sleep)).map (·.int? 0)
      = [some 100, some 200] ∧
    delays (transpile "a" revealedLine {}).document = [100, 200] ∧
    ∀ j ∈ Bytecode.decode .standard true revealedLine, j.mnemonic = .sleep →
      ∃ ms rest s s', j.int? 0 = some ms ∧
        step (scriptContext "a" revealedLine {}) s j rest = .ok s' ∧
        Delayed (scriptContext "a" revealedLine {}) rest ms
          ((tale (scriptContext "a" revealedLine {})
            (transpile "a" revealedLine {}).document).filter
            (takes (scriptContext "a" revealedLine {}) j))
          (announce (scriptContext "a" revealedLine {})
            (s.arrive (scriptContext "a" revealedLine {}) j rest) j)
          s' := by
  refine ⟨by decide +kernel, by decide +kernel, fun j hj hsleep => ?_⟩
  obtain ⟨ms, rest, s, s', after, hms, -, hstep, -, hdelayed⟩ :=
    (transpile_pauses "a" revealedLine {} (by decide +kernel)).2 j hj hsleep
  exact ⟨ms, rest, s, s', hms, hstep, hdelayed⟩

/-- A line that appears letter by letter, a pause and a menu. -/
def revealedLineAndMenu : List UInt8 :=
  [0x03, 1, 0xe1, 3, 0, 100, 0, 0, 0x41, 0, 0, 0, 0x61, 0, 0x82, 100, 0, 0,
   0x02, 1, 0, 0, 0, 0x78, 0, 0, 1, 0, 0, 0x62, 0]

/-- The script has one pause, and the screenplay has its delay twice: in its place and in the line
under the menu. -/
theorem pause_doubled :
    ((Bytecode.decode .standard true revealedLineAndMenu).filter (·.mnemonic == .sleep)).map
      (·.int? 0)
      = [some 100] ∧
    (transpile "a" revealedLineAndMenu {}).isComplete = true ∧
    delays (transpile "a" revealedLineAndMenu {}).document = [100, 100] := by
  decide +kernel

end Rio
