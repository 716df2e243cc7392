import Rio.Proofs.Screenplay.Blocks
import Rio.Proofs.Screenplay.Labels
import Rio.Proofs.Screenplay.Nesting

/-!
# Guards of branches

A branch becomes an `if` whose block ends where the branch would have gone. All that lies in
between should depend on its comparison, but a label that is set right in the block ends it: what
follows the label is no longer guarded. `Context.Cuts c b t` says that the block of `b` is ended
by a label at `t`. A label in the block of a branch further in only ends that one, and

> `exists_guarded`: as long as nothing cuts the block of a branch, all that the steps in its range
> write is deeper than its `if`.

The argument is about the addresses where the open branches close. In a script with nested
branches (`Nested`) those that lie inside the block of `b` are known at each instruction: they are
the ends of the branches since `b` that were not yet reached (`Opened`). The depth at which a step
writes follows from their number (`addsFrom_step`).
-/

namespace Rio

open Renpy (Row Statement)

/-- A script whose branches go forward to an instruction and nest: one in the block of another
closes no later. -/
structure Nested (l : List Instruction) : Prop where
  closes : ∀ b ∈ l, b.mnemonic.isConditional →
    ∃ close ∈ b.close?, b.next ≤ close ∧ ∃ j ∈ l, j.addr = close
  nests : ∀ b ∈ l, ∀ close ∈ b.close?, ∀ b' ∈ l, ∀ close' ∈ b'.close?,
    b.next ≤ b'.addr → b'.addr < close → close' ≤ close

theorem Instruction.addr_le_next (i : Instruction) : i.addr ≤ i.next :=
  Nat.le_add_right _ _

theorem Instruction.isConditional_of_close? {i : Instruction} {close : Nat}
    (h : i.close? = some close) : i.mnemonic.isConditional = true := by
  unfold close? at h
  split at h
  · assumption
  · cases h

theorem Nested.of_close? {l : List Instruction} (hl : Nested l) {b : Instruction} (hb : b ∈ l)
    {close : Nat} (hclose : b.close? = some close) :
    b.next ≤ close ∧ ∃ j ∈ l, j.addr = close := by
  obtain ⟨close', hclose', hfacts⟩ := hl.closes b hb (Instruction.isConditional_of_close? hclose)
  rw [hclose] at hclose'
  obtain rfl := Option.some.inj hclose'
  exact hfacts

/-- The `if` of a branch. -/
def Instruction.Heads (i : Instruction) (st : Statement) : Prop :=
  st = .ifFalse ∨ ∃ reference cmp value, i.mnemonic.comparison? = some cmp ∧ i.int? 1 = some value ∧
    st = .ifFlag reference cmp value

namespace Bytecode.Placed

variable {stop addr : Nat} {l : List Instruction}

/-- Branches take up bytes. -/
theorem addr_lt_next (h : Placed stop addr l) {b : Instruction} (hb : b ∈ l) {close : Nat}
    (hclose : b.close? = some close) : b.addr < b.next := by
  have hpos : 0 < b.len := by
    apply h.len_pos b hb
    have hcond := Instruction.isConditional_of_close? hclose
    constructor <;>
      · intro hm
        rw [hm] at hcond
        cases hcond
  exact Nat.lt_add_of_pos_right hpos

/-- Of two instructions at one address the first is the marker for a missing terminator. -/
theorem eq_marker (h : Placed stop addr l) :
    l.Pairwise fun i j => i.addr = j.addr → i = .marker i.addr .notTerminated := by
  induction h with
  | last => exact List.pairwise_singleton ..
  | @proper i rest _ hpos hrest ih =>
    refine List.pairwise_cons.mpr ⟨fun j hj heq => ?_, ih⟩
    have hle := hrest.le_addr j hj
    unfold Instruction.next at hle
    omega
  | unterminated _ _ ih => exact List.pairwise_cons.mpr ⟨fun _ _ _ => rfl, ih⟩

end Bytecode.Placed

namespace Screenplay

open Renpy (Document)

variable {c : Context} {s s' t : State} {i : Instruction} {rest : List Instruction} {n : Nat}

/-! ## Branches as they are read -/

/-- A branch closes where its instruction says, and is headed as it says. -/
theorem of_branch {b : Branch} (h : Reading.ofInstruction i = .command (.branch b)) :
    i.close? = some b.close ∧ ∀ st, b.Heads st → i.Heads st := by
  have hcond : i.mnemonic.isConditional = true := isFrom_of_command h
  obtain ⟨cmp, hcmp⟩ := Option.isSome_iff_exists.mp hcond
  rw [ofInstruction_eq_ofBranch hcmp, ofOption_eq_command_iff] at h
  simp only [Command.ofBranch, Option.bind_eq_bind, Option.bind_eq_some_iff, Option.pure_def,
    Option.some.injEq, Command.branch.injEq] at h
  obtain ⟨flag, -, value, hvalue, rel, hrel, close, hclose, rfl⟩ := h
  constructor
  · rw [Instruction.close?, if_pos hcond, hrel]
    exact hclose
  · rintro st (rfl | ⟨reference, rfl⟩)
    · exact .inl rfl
    · exact .inr ⟨reference, cmp, value, hcmp, hvalue, rfl⟩

/-- What closes somewhere is a branch, unless it cannot be read. -/
theorem branch_of_close? {close : Nat} (h : i.close? = some close) :
    Reading.ofInstruction i = .malformed ∨
      ∃ b, Reading.ofInstruction i = .command (.branch b) := by
  obtain ⟨cmp, hread⟩ := ofInstruction_of_isConditional (Instruction.isConditional_of_close? h)
  cases hbranch : Command.ofBranch i cmp with
  | none => exact .inl (by rw [hread, hbranch]; rfl)
  | some command =>
    right
    rw [hread, hbranch]
    simp only [Command.ofBranch, Option.bind_eq_bind, Option.bind_eq_some_iff, Option.pure_def,
      Option.some.injEq] at hbranch
    obtain ⟨flag, -, value, -, rel, -, x, -, rfl⟩ := hbranch
    exact ⟨_, rfl⟩

/-! ## Where the open branches close -/

theorem scopeEnds_placeSkipMark (s : State) (c : Context) (addr : Nat) :
    (s.placeSkipMark c addr).scopeEnds = s.scopeEnds := by
  unfold State.placeSkipMark
  split
  · rfl
  · dsimp only
    split <;> rfl
  · rfl

theorem scopeEnds_placeLabel (s : State) (c : Context) (addr : Nat) :
    (s.placeLabel c addr).scopeEnds = s.scopeEnds := by
  unfold State.placeLabel
  split <;> rfl

/-- On the way to an instruction the branches that end there are closed. -/
theorem scopeEnds_arrive (s : State) (i : Instruction) (rest : List Instruction) :
    (s.arrive c i rest).scopeEnds = s.scopeEnds.dropWhile (· == i.addr) := by
  have hclosed : ∀ t : State, ((t.closeBranches i.addr).placeLabel c i.addr).scopeEnds
      = t.scopeEnds.dropWhile (· == i.addr) := fun t => scopeEnds_placeLabel _ c i.addr
  have hheld : (s.arrive c i rest).scopeEnds
      = (((s.placeSkipMark c i.addr).closeBranches i.addr).placeLabel c i.addr).scopeEnds := by
    unfold State.arrive
    dsimp only
    split <;> rfl
  rw [hheld, hclosed, scopeEnds_placeSkipMark]

theorem scopeEnds_announce (s : State) (i : Instruction) :
    (announce c s i).scopeEnds = s.scopeEnds :=
  (Acts.within (c := c) (P := fun _ => False) id (announce_acts i)).ends

/-- A step closes the branches that end at its instruction, and opens one if the instruction is a
branch. -/
theorem scopeEnds_step (h : step c s i rest = .ok s') :
    s'.scopeEnds = i.close?.toList ++ s.scopeEnds.dropWhile (· == i.addr) := by
  cases stepped_of_ok h with
  | ending hend =>
    have hclose : i.close? = none := by
      unfold Instruction.close?
      rw [hend]
      rfl
    rw [hclose]
    exact scopeEnds_placeLabel _ c i.addr
  | unhandled hend hread =>
    have hclose : i.close? = none := by
      rw [Option.eq_none_iff_forall_ne_some]
      intro close hclose
      rcases branch_of_close? hclose with hread' | ⟨b, hread'⟩ <;>
        rw [hread] at hread' <;> cases hread'
    rw [hclose]
    exact scopeEnds_arrive s i rest
  | @command command _ hend hread hexec =>
    by_cases hbranch : ∃ b, command = .branch b
    · obtain ⟨b, rfl⟩ := hbranch
      obtain rfl := Except.ok.inj hexec
      obtain ⟨t, st, -, -, -, heq⟩ := branch_eq c (announce c (s.arrive c i rest) i) b
      rw [heq, (of_branch hread).1, scopeEnds_announce, scopeEnds_arrive]
      rfl
    · have hclose : i.close? = none := by
        rw [Option.eq_none_iff_forall_ne_some]
        intro close hclose
        rcases branch_of_close? hclose with hread' | ⟨b, hread'⟩ <;> rw [hread] at hread'
        · cases hread'
        · exact hbranch ⟨b, Reading.command.inj hread'⟩
      rw [hclose, (execute_within (fun b hb => hbranch ⟨b, hb⟩) hexec).ends, scopeEnds_announce,
        scopeEnds_arrive]
      rfl

/-! ## How deep a step writes -/

/-- Closing branches writes no further out than the blocks that stay open. -/
theorem addsFrom_closeBranches (h : s.Aligned) {addr : Nat}
    (hn : n ≤ 1 + (s.scopeEnds.dropWhile (· == addr)).length) :
    s.document.AddsFrom (s.closeBranches addr).document n := by
  have hclose : ∀ (closed : List Nat) (s : State), n + closed.length ≤ s.document.depth →
      s.document.AddsFrom (closed.foldl (fun s _ => s.closeScope) s).document n := by
    intro closed
    induction closed with
    | nil =>
      intro s _
      exact .of_rows_eq rfl
    | cons _ closed ih =>
      intro s hdepth
      rw [List.length_cons] at hdepth
      have hclosed : s.closeScope.document.depth = s.document.depth - 1 :=
        s.document.depth_closeScope
      have hfirst : s.document.AddsFrom s.closeScope.document n :=
        .closeScope s.document (by omega)
      exact hfirst.trans (ih s.closeScope (by omega))
  refine hclose _ s ?_
  have hlength := congrArg List.length
    (List.takeWhile_append_dropWhile (p := (· == addr)) (l := s.scopeEnds))
  rw [List.length_append] at hlength
  have hdepth := h.depth_eq
  omega

/-- A label stands one further out than what it leads to. -/
theorem addsFrom_placeLabel (c : Context) {addr : Nat} (hn : n ≤ s.document.depth)
    (hlabel : addr ∈ s.pendingLabels → n < s.document.depth) :
    s.document.AddsFrom (s.placeLabel c addr).document n := by
  unfold State.placeLabel
  split
  · next hmem =>
    have hlt := hlabel (List.contains_iff_mem.mp hmem)
    have hclosed := s.document.depth_closeScope
    refine (Document.AddsFrom.closeScope s.document hn).trans ?_
    exact .header s.document.closeScope (by omega) _
  · exact .of_rows_eq rfl

/-- The label at the end of a range of scenes stands one further out, so a block has to be open. -/
theorem addsFrom_placeSkipMark {addr : Nat} (hn : n ≤ s.document.depth)
    (hstop : ∀ index, c.skipMark? addr = some (.stop index) → n < s.document.depth) :
    s.document.AddsFrom (s.placeSkipMark c addr).document n := by
  by_cases hmark : ∃ index, c.skipMark? addr = some (.stop index)
  · obtain ⟨index, hmark⟩ := hmark
    have hlt := hstop index hmark
    have hclosed := s.document.depth_closeScope
    rw [placeSkipMark_of_stop hmark]
    refine ((Document.AddsFrom.closeScope s.document hn).trans
      (.of_rows_eq (s.document.closeScope.rows_comment (.skipEnd index)))).trans ?_
    refine .header (s.document.closeScope.comment (.skipEnd index)) ?_ _
    rw [Document.depth_comment]
    omega
  · exact (placeSkipMark_within fun index hindex => hmark ⟨index, hindex⟩).document.adds.addsFrom hn

/-- What is written on the way to an instruction stands in the blocks that are open there, if no
label is set in the outermost one of them. -/
theorem addsFrom_arrive (h : s.Aligned) (rest : List Instruction)
    (hn : n ≤ 1 + (s.scopeEnds.dropWhile (· == i.addr)).length)
    (hstop : ∀ index, c.skipMark? i.addr = some (.stop index) → n ≤ s.scopeEnds.length)
    (hlabel : i.addr ∈ s.pendingLabels → n ≤ (s.scopeEnds.dropWhile (· == i.addr)).length) :
    s.document.AddsFrom (s.arrive c i rest).document n := by
  have hmarked := h.placeSkipMark c i.addr
  have hclosed := hmarked.closeBranches i.addr
  have hends : ((s.placeSkipMark c i.addr).closeBranches i.addr).scopeEnds
      = s.scopeEnds.dropWhile (· == i.addr) := by
    show (s.placeSkipMark c i.addr).scopeEnds.dropWhile (· == i.addr) = _
    rw [scopeEnds_placeSkipMark]
  have hpending : ((s.placeSkipMark c i.addr).closeBranches i.addr).pendingLabels
      = s.pendingLabels := congrArg Marks.pending (marks_closeBranches_placeSkipMark s i.addr)
  have hdepth := h.depth_eq
  have hdepth' : ((s.placeSkipMark c i.addr).closeBranches i.addr).document.depth
      = 1 + (s.scopeEnds.dropWhile (· == i.addr)).length := by rw [hclosed.depth_eq, hends]
  have hle : (s.scopeEnds.dropWhile (· == i.addr)).length ≤ s.scopeEnds.length :=
    (List.dropWhile_sublist _).length_le
  -- the mark of a range of scenes, the branches that end here, and the label
  have h₁ : s.document.AddsFrom (s.placeSkipMark c i.addr).document n := by
    refine addsFrom_placeSkipMark (by omega) fun index hindex => ?_
    have := hstop index hindex
    omega
  have h₂ : (s.placeSkipMark c i.addr).document.AddsFrom
      ((s.placeSkipMark c i.addr).closeBranches i.addr).document n :=
    addsFrom_closeBranches hmarked (by rw [scopeEnds_placeSkipMark]; exact hn)
  have h₃ : ((s.placeSkipMark c i.addr).closeBranches i.addr).document.AddsFrom
      (((s.placeSkipMark c i.addr).closeBranches i.addr).placeLabel c i.addr).document n := by
    refine addsFrom_placeLabel c (by omega) fun hmem => ?_
    have := hlabel (hpending ▸ hmem)
    omega
  unfold State.arrive
  dsimp only
  split
  · exact (h₁.trans h₂).trans h₃
  · exact (h₁.trans h₂).trans h₃

theorem rows_announce (s : State) (i : Instruction) :
    (announce c s i).document.rows = s.document.rows := by
  unfold announce
  dsimp only
  split
  · exact s.document.rows_comment _
  · rfl

/-- What a step writes stands in the blocks that are open at its instruction, if no label is set
in the outermost one of them. -/
theorem addsFrom_step (h : s.Aligned) (hstep : step c s i rest = .ok s')
    (hn : n ≤ 1 + (s.scopeEnds.dropWhile (· == i.addr)).length)
    (hstop : ∀ index, c.skipMark? i.addr = some (.stop index) → n ≤ s.scopeEnds.length)
    (hlabel : i.addr ∈ s.pendingLabels → n ≤ (s.scopeEnds.dropWhile (· == i.addr)).length) :
    s.document.AddsFrom s'.document n := by
  have harrive := addsFrom_arrive h rest hn hstop hlabel
  have hready := h.arrive c i rest
  have hdepth : n ≤ (s.arrive c i rest).document.depth := by
    rw [hready.depth_eq, scopeEnds_arrive]
    exact hn
  cases stepped_of_ok hstep with
  | ending hend =>
    have hclosed := h.closeBranches i.addr
    have hdepth' : (s.closeBranches i.addr).document.depth
        = 1 + (s.scopeEnds.dropWhile (· == i.addr)).length := hclosed.depth_eq
    refine (addsFrom_closeBranches h hn).trans (addsFrom_placeLabel c (by omega) fun hmem => ?_)
    have hpending : (s.closeBranches i.addr).pendingLabels = s.pendingLabels := by
      have hacts : Acts c (fun st => st.namesAddress = false) s (s.closeBranches i.addr) :=
        closeBranches_acts (P := fun st => st.namesAddress = false) rfl _
      exact congrArg Marks.pending hacts.marks_eq
    have := hlabel (hpending ▸ hmem)
    omega
  | unhandled hend hread => exact harrive.trans (.of_rows_eq (Document.rows_comment ..))
  | @command command _ hend hread hexec =>
    have hannounce : (s.arrive c i rest).document.AddsFrom
        (announce c (s.arrive c i rest) i).document n := .of_rows_eq (rows_announce _ i)
    have hdepth' : n ≤ (announce c (s.arrive c i rest) i).document.depth := by
      rw [(hready.announce c i).depth_eq, scopeEnds_announce, scopeEnds_arrive]
      exact hn
    have hadds := addsWithin_execute c i rest (announce c (s.arrive c i rest) i) command
    rw [hexec] at hadds
    exact (harrive.trans hannounce).trans (hadds.addsFrom hdepth')

/-- Whatever a run does, it adds to the document. -/
theorem Runs.adds {l : List Instruction} (h : Runs c l s rest t) (hs : s.Aligned) :
    s.document.AddsFrom t.document 0 := by
  induction h with
  | here => exact .of_rows_eq rfl
  | step hruns hstep ih =>
    exact ih.trans (addsFrom_step (hruns.aligned hs) hstep (Nat.zero_le _)
      (fun _ _ => Nat.zero_le _) fun _ => Nat.zero_le _)

/-- A branch ends what it writes with its `if`. -/
theorem rows_of_close? {close : Nat} (h : s.Aligned) (hclose : i.close? = some close)
    (hstep : step c s i rest = .ok s') :
    ∃ lead st, i.Heads st ∧ s'.document.rows
      = s.document.rows ++ lead ++ [⟨1 + (s.scopeEnds.dropWhile (· == i.addr)).length, st⟩] := by
  have hready := (h.arrive c i rest).announce c i
  have hread := branch_of_close? hclose
  cases stepped_of_ok hstep with
  | ending hend =>
    have hcond := Instruction.isConditional_of_close? hclose
    rw [hend] at hcond
    cases hcond
  | unhandled hend hread' => simp [hread'] at hread
  | @command command _ hend hread' hexec =>
    rw [hread'] at hread
    obtain hmalformed | ⟨b, hb⟩ := hread
    · cases hmalformed
    · obtain rfl := Reading.command.inj hb
      obtain rfl := Except.ok.inj hexec
      obtain ⟨t, st, hwithin, hrows, hst, heq⟩ := branch_eq c (announce c (s.arrive c i rest) i) b
      obtain ⟨lead, hlead, -⟩ := addsFrom_arrive (c := c) (i := i) (n := 0) h rest (Nat.zero_le _)
        (fun _ _ => Nat.zero_le _) fun _ => Nat.zero_le _
      refine ⟨lead, st, (of_branch hread').2 st hst, ?_⟩
      rw [heq]
      show (t.document.header st).rows = _
      rw [Document.rows_header, hrows, rows_announce, hlead, hwithin.document.depth_eq,
        hready.depth_eq, scopeEnds_announce, scopeEnds_arrive]

/-! ## Branches inside a block -/

/-- Whether a range of scenes ends at an address. -/
def Context.endsRange (c : Context) (addr : Nat) : Bool :=
  match c.skipMark? addr with
  | some (.stop _) => true
  | _ => false

/-- A label at `t` ends the block of the branch `b`: a jump leads there, or a range of scenes ends
there, and all branches since `b` have closed. The label of a range of scenes comes before the
branches that end at its address are closed, but it is set again after a marker. -/
def Context.Cuts (c : Context) (b : Instruction) (t : Nat) : Prop :=
  IsGoal c.instructions t ∧
      (∀ b' ∈ c.instructions, ∀ e ∈ b'.close?, b.next ≤ b'.addr → b'.next ≤ t → e ≤ t) ∨
    c.endsRange t = true ∧
      ∀ b' ∈ c.instructions, ∀ e ∈ b'.close?, b.next ≤ b'.addr → b'.next ≤ t →
        e < t ∨ e = t ∧ .marker t .notTerminated ∈ c.instructions

instance (c : Context) (b : Instruction) (t : Nat) : Decidable (c.Cuts b t) :=
  inferInstanceAs (Decidable (_ ∨ _))

/-- A script taken apart at a branch and at an instruction that comes later. -/
structure Apart (l front : List Instruction) (b : Instruction) (between : List Instruction)
    (i : Instruction) (rest : List Instruction) : Prop where
  eq : l = front ++ b :: (between ++ i :: rest)
  placed : ∃ stop, Bytecode.Placed stop 0 l
  nested : Nested l

namespace Apart

variable {l front between : List Instruction} {b k : Instruction} {e : Nat}

/-- Where an instruction of the script lies. -/
theorem order (h : Apart l front b between i rest) (hk : k ∈ l) :
    k.next ≤ b.addr ∨ k = b ∨ (k ∈ between ∧ b.next ≤ k.addr ∧ k.next ≤ i.addr) ∨ k = i ∨
      i.next ≤ k.addr := by
  obtain ⟨stop, hplaced⟩ := h.placed
  have hpair := hplaced.pairwise
  rw [h.eq, List.pairwise_append, List.pairwise_cons, List.pairwise_append,
    List.pairwise_cons] at hpair
  obtain ⟨-, ⟨hb, -, ⟨hi, -⟩, hbetween⟩, hfront⟩ := hpair
  rw [h.eq] at hk
  rcases List.mem_append.mp hk with hk | hk
  · exact .inl (hfront k hk b (List.mem_cons_self ..))
  · rcases List.mem_cons.mp hk with rfl | hk
    · exact .inr (.inl rfl)
    · have hafter := hb k hk
      rcases List.mem_append.mp hk with hk | hk
      · exact .inr (.inr (.inl ⟨hk, hafter, hbetween k hk i (List.mem_cons_self ..)⟩))
      · rcases List.mem_cons.mp hk with rfl | hk
        · exact .inr (.inr (.inr (.inl rfl)))
        · exact .inr (.inr (.inr (.inr (hi k hk))))

theorem mem_of_between (h : Apart l front b between i rest) (hk : k ∈ between) : k ∈ l := by
  rw [h.eq]
  simp [hk]

/-- What lies in between starts after the branch and ends before the instruction. -/
theorem of_between (h : Apart l front b between i rest) (hk : k ∈ between) :
    b.next ≤ k.addr ∧ k.next ≤ i.addr := by
  obtain ⟨stop, hplaced⟩ := h.placed
  have hpair := hplaced.pairwise
  rw [h.eq, List.pairwise_append, List.pairwise_cons, List.pairwise_append] at hpair
  obtain ⟨-, ⟨hb, -, -, hbetween⟩, -⟩ := hpair
  exact ⟨hb k (List.mem_append_left _ hk), hbetween k hk i (List.mem_cons_self ..)⟩

theorem next_le (h : Apart l front b between i rest) : b.next ≤ i.addr := by
  obtain ⟨stop, hplaced⟩ := h.placed
  have hpair := hplaced.pairwise
  rw [h.eq, List.pairwise_append, List.pairwise_cons] at hpair
  exact hpair.2.1.1 i (by simp)

theorem addr_lt_next (h : Apart l front b between i rest) (hk : k ∈ l)
    (hclose : k.close? = some e) :
    k.addr < k.next := by
  obtain ⟨stop, hplaced⟩ := h.placed
  exact hplaced.addr_lt_next hk hclose

/-- The branches before the instruction that lie in the block are the ones in between. -/
theorem mem_between (h : Apart l front b between i rest) (hk : k ∈ l) (hclose : k.close? = some e)
    (hfrom : b.next ≤ k.addr) (hto : k.next ≤ i.addr) : k ∈ between := by
  have hlt := h.addr_lt_next hk hclose
  have hb := b.addr_le_next
  have hi := i.addr_le_next
  rcases h.order hk with hk | rfl | hk | rfl | hk
  · omega
  · omega
  · exact hk.1
  · omega
  · omega

end Apart

/-- A branch that ends before an instruction comes before it. -/
theorem exists_apart {stop : Nat} {l before : List Instruction} {b : Instruction} {close : Nat}
    (hplaced : Bytecode.Placed stop 0 l) (hnested : Nested l) (hb : b ∈ l)
    (heq : l = before ++ i :: rest) (hclose : b.close? = some close) (hfrom : b.next ≤ i.addr) :
    ∃ front between, Apart l front b between i rest := by
  have hbefore : b ∈ before := by
    have hpair := hplaced.pairwise
    have hlt := hplaced.addr_lt_next hb hclose
    have hinext := i.addr_le_next
    rw [heq] at hb
    rw [heq, List.pairwise_append, List.pairwise_cons] at hpair
    rcases List.mem_append.mp hb with hb | hb
    · exact hb
    · rcases List.mem_cons.mp hb with rfl | hb
      · omega
      · have := hpair.2.1.1 b hb
        omega
  obtain ⟨front, between, rfl⟩ := List.append_of_mem hbefore
  exact ⟨front, between, by rw [heq]; simp, ⟨stop, hplaced⟩, hnested⟩

/-- The branches among the instructions `between` that are still open, by the addresses where they
close, inside a branch that closes at `close`. -/
structure Opened (between : List Instruction) (inner : List Nat) (close : Nat) : Prop where
  sorted : (inner ++ [close]).Pairwise (· ≤ ·)
  mem_iff : ∀ e, e ∈ inner ↔ (∃ b ∈ between, b.close? = some e) ∧ ∀ j ∈ between, j.addr ≠ e

theorem opened_nil (close : Nat) : Opened [] [] close :=
  ⟨List.pairwise_singleton .., fun e => (by simp)⟩

namespace Opened

variable {l front between : List Instruction} {b : Instruction} {inner : List Nat} {close e : Nat}

/-- The open branches close at the next instruction or later. -/
theorem ahead (h : Opened between inner close) (hl : Apart l front b between i rest)
    (he : e ∈ inner) : i.addr ≤ e := by
  obtain ⟨⟨b', hb', hclose⟩, hreached⟩ := (h.mem_iff e).mp he
  have hmem := hl.mem_of_between hb'
  have hlt := hl.addr_lt_next hmem hclose
  have hbetween := hl.of_between hb'
  obtain ⟨hnext, j, hj, rfl⟩ := hl.nested.of_close? hmem hclose
  have hjnext := j.addr_le_next
  have hinext := i.addr_le_next
  have hbnext := b.addr_le_next
  rcases hl.order hj with hj | rfl | hj | rfl | hj
  · omega
  · omega
  · exact absurd rfl (hreached j hj.1)
  · exact Nat.le_refl _
  · omega

theorem lt_of_mem_dropWhile (h : Opened between inner close) (hl : Apart l front b between i rest)
    (he : e ∈ inner.dropWhile (· == i.addr)) : i.addr < e :=
  Frame.lt_of_mem_dropWhile (h.sorted.sublist (List.sublist_append_left ..))
    (fun _ hx => h.ahead hl hx) he

/-- Of the branches inside, those that end at the instruction are the first ones. -/
theorem mem_dropWhile_iff (h : Opened between inner close) (hl : Apart l front b between i rest) :
    e ∈ inner.dropWhile (· == i.addr) ↔ e ∈ inner ∧ e ≠ i.addr := by
  constructor
  · intro he
    have hlt := h.lt_of_mem_dropWhile hl he
    exact ⟨(List.dropWhile_sublist _).mem he, by omega⟩
  · rintro ⟨he, hne⟩
    rw [← List.takeWhile_append_dropWhile (p := (· == i.addr)) (l := inner)] at he
    rcases List.mem_append.mp he with he | he
    · have heq := List.mem_takeWhile_imp he
      exact absurd (beq_iff_eq.mp heq) hne
    · exact he

/-- One instruction further on the branches that end there are closed, and it may be a branch
itself. -/
theorem step (h : Opened between inner close) (hl : Apart l front b between i rest) (hb : b ∈ l)
    (hclose : b.close? = some close) (hto : i.addr < close) :
    Opened (between ++ [i]) (i.close?.toList ++ inner.dropWhile (· == i.addr)) close := by
  have hi : i ∈ l := by rw [hl.eq]; simp
  have hleft : (inner.dropWhile (· == i.addr) ++ [close]).Pairwise (· ≤ ·) :=
    h.sorted.sublist ((List.dropWhile_sublist _).append_right _)
  constructor
  · -- the instruction depends on all branches that are open there
    rw [List.append_assoc]
    refine List.pairwise_append.mpr ⟨?_, hleft, fun e he x hx => ?_⟩
    · cases i.close? with
      | none => exact .nil
      | some e => exact List.pairwise_singleton ..
    · have he' : i.close? = some e := Option.mem_toList.mp he
      rcases List.mem_append.mp hx with hx | hx
      · obtain ⟨⟨b', hb', hclose'⟩, -⟩ := (h.mem_iff x).mp ((h.mem_dropWhile_iff hl).mp hx).1
        exact hl.nested.nests b' (hl.mem_of_between hb') x hclose' i hi e he'
          (hl.of_between hb').2 (h.lt_of_mem_dropWhile hl hx)
      · rw [List.mem_singleton.mp hx]
        exact hl.nested.nests b hb close hclose i hi e he' hl.next_le hto
  · intro e
    have hlast : i ∈ between ++ [i] := List.mem_append_right _ (List.mem_singleton.mpr rfl)
    rw [List.mem_append, h.mem_dropWhile_iff hl, h.mem_iff e]
    constructor
    · rintro (he | ⟨⟨⟨b', hb', he⟩, hreached⟩, hne⟩)
      · have he' : i.close? = some e := Option.mem_toList.mp he
        have hnext := (hl.nested.of_close? hi he').1
        have hlt := hl.addr_lt_next hi he'
        -- a branch closes behind itself, so no instruction up to it is at its end
        refine ⟨⟨i, hlast, he'⟩, fun j hj => ?_⟩
        rcases List.mem_append.mp hj with hj | hj
        · have hj' := (hl.of_between hj).2
          have hjnext := j.addr_le_next
          omega
        · rw [List.mem_singleton.mp hj]
          omega
      · refine ⟨⟨b', List.mem_append_left _ hb', he⟩, fun j hj => ?_⟩
        rcases List.mem_append.mp hj with hj | hj
        · exact hreached j hj
        · rw [List.mem_singleton.mp hj]
          exact hne.symm
    · rintro ⟨⟨b', hb', he⟩, hreached⟩
      rcases List.mem_append.mp hb' with hb' | hb'
      · exact .inr ⟨⟨⟨b', hb', he⟩, fun j hj => hreached j (List.mem_append_left _ hj)⟩,
          (hreached i hlast).symm⟩
      · rw [List.mem_singleton.mp hb'] at he
        exact .inl (Option.mem_toList.mpr he)

/-- Where a jump leads and nothing is cut, a branch further in stays open. -/
theorem exists_of_goal (h : Opened between inner close)
    (hl : Apart c.instructions front b between i rest) (hcut : ¬c.Cuts b i.addr)
    (hgoal : IsGoal c.instructions i.addr) :
    0 < (inner.dropWhile (· == i.addr)).length := by
  have hopen : ∃ b' ∈ c.instructions, ∃ e, b'.close? = some e ∧ b.next ≤ b'.addr ∧
      b'.next ≤ i.addr ∧ i.addr < e := by
    by_contra hnone
    refine hcut (.inl ⟨hgoal, fun b' hb' e he hfrom hto => ?_⟩)
    by_contra hlt
    exact hnone ⟨b', hb', e, he, hfrom, hto, by omega⟩
  obtain ⟨b', hb', e, he, hfrom, hto, hlt⟩ := hopen
  refine List.length_pos_of_mem
    ((h.mem_dropWhile_iff hl).mpr ⟨(h.mem_iff e).mpr ⟨⟨b', ?_, he⟩, ?_⟩, ?_⟩)
  · exact hl.mem_between hb' he hfrom hto
  · intro j hj
    have hj' := (hl.of_between hj).2
    have hjnext := j.addr_le_next
    omega
  · omega

/-- Where a range of scenes ends and nothing is cut, a branch further in is open. -/
theorem exists_of_endsRange (h : Opened between inner close)
    (hl : Apart c.instructions front b between i rest) (hcut : ¬c.Cuts b i.addr)
    (hrange : c.endsRange i.addr = true) : 0 < inner.length := by
  have hopen : ∃ b' ∈ c.instructions, ∃ e, b'.close? = some e ∧ b.next ≤ b'.addr ∧
      b'.next ≤ i.addr ∧ i.addr ≤ e ∧
      (e = i.addr → .marker i.addr .notTerminated ∉ c.instructions) := by
    by_contra hnone
    refine hcut (.inr ⟨hrange, fun b' hb' e he hfrom hto => ?_⟩)
    by_contra hlt
    refine hnone ⟨b', hb', e, he, hfrom, hto, by omega,
      fun heq hmarker => hlt (.inr ⟨heq, hmarker⟩)⟩
  obtain ⟨b', hb', e, he, hfrom, hto, hle, hfirst⟩ := hopen
  refine List.length_pos_of_mem ((h.mem_iff e).mpr ⟨⟨b', hl.mem_between hb' he hfrom hto, he⟩, ?_⟩)
  -- an instruction that was reached at the same address would have been a marker
  intro j hj heq
  have hj' := (hl.of_between hj).2
  have hjnext := j.addr_le_next
  have haddr : j.addr = i.addr := by omega
  obtain ⟨stop, hplaced⟩ := hl.placed
  have hpair := hplaced.eq_marker
  rw [hl.eq, List.pairwise_append, List.pairwise_cons, List.pairwise_append] at hpair
  have hmarker := hpair.2.1.2.2.2 j hj i (List.mem_cons_self ..) haddr
  refine hfirst (by omega) ?_
  rw [← haddr, ← hmarker]
  exact hl.mem_of_between hj

end Opened

/-! ## Along the run -/

theorem dropWhile_append_cons {inner outer : List Nat} {close addr : Nat} (h : addr < close) :
    (inner ++ close :: outer).dropWhile (· == addr)
      = inner.dropWhile (· == addr) ++ close :: outer := by
  rw [List.dropWhile_append]
  split
  · next hempty =>
    rw [List.isEmpty_iff.mp hempty, List.nil_append]
    exact List.dropWhile_cons_of_neg (by simp; omega)
  · rfl

theorem Runs.trans {l l' : List Instruction} (h : Runs c l s l' s') (h' : Runs c l' s' rest t) :
    Runs c l s rest t := by
  induction h' with
  | here => exact h
  | step _ hstep ih => exact ih.step hstep

theorem Runs.exists_append {l : List Instruction} (h : Runs c l s rest t) :
    ∃ before, l = before ++ rest := by
  induction h with
  | here => exact ⟨[], rfl⟩
  | @step i rest t t' _ _ ih =>
    obtain ⟨before, rfl⟩ := ih
    exact ⟨before ++ [i], by simp⟩

/-- What a run comes to is in the script. -/
theorem Runs.mem {l : List Instruction} (h : Runs c l s (i :: rest) t) : i ∈ l := by
  obtain ⟨before, rfl⟩ := h.exists_append
  exact List.mem_append_right _ (List.mem_cons_self ..)

/-- A run that gets through comes to each of its instructions. -/
theorem runs_of_ok {before : List Instruction} {index : Nat}
    (h : runFrom c s index (before ++ rest) = .ok s') :
    ∃ t k, Runs c (before ++ rest) s rest t ∧ runFrom c t k rest = .ok s' := by
  induction before generalizing s index with
  | nil => exact ⟨s, index, .here, h⟩
  | cons i before ih =>
    rw [List.cons_append, runFrom] at h
    cases hstep : step c s i (before ++ rest) with
    | error halt =>
      rw [hstep] at h
      cases h
    | ok s₁ =>
      rw [hstep] at h
      obtain ⟨t, k, hruns, hrest⟩ := ih h
      have hfirst : Runs c (i :: (before ++ rest)) s (before ++ rest) s₁ := .step .here hstep
      exact ⟨t, k, hfirst.trans hruns, hrest⟩

/-- What is written after a branch stays in its block, as long as nothing cuts it. -/
theorem Runs.guarded {front tail : List Instruction} {b : Instruction} {close : Nat}
    {outer : List Nat} (hruns : Runs c tail s rest t) (hs : Reached c tail s)
    (hends : s.scopeEnds = close :: outer) (heq : c.instructions = front ++ b :: tail)
    (hplaced : ∃ stop, Bytecode.Placed stop 0 c.instructions) (hnested : Nested c.instructions)
    (hclose : b.close? = some close)
    (hgoal : ∀ i rest s, Reached c (i :: rest) s → i.addr ∈ s.pendingLabels →
      IsGoal c.instructions i.addr) :
    ∀ between, tail = between ++ rest → (∀ j ∈ between, j.addr < close ∧ ¬c.Cuts b j.addr) →
      s.document.AddsFrom t.document (2 + outer.length) ∧
        ∃ inner, t.scopeEnds = inner ++ close :: outer ∧ Opened between inner close := by
  have hb : b ∈ c.instructions := by rw [heq]; simp
  induction hruns with
  | here =>
    intro between hbetween _
    have hnil : between = [] := by simpa using hbetween
    rw [hnil]
    exact ⟨.of_rows_eq rfl, [], hends, opened_nil close⟩
  | @step i rest t t' hruns hstep ih =>
    intro between hbetween hwhole
    obtain ⟨before, htail⟩ := hruns.exists_append
    have hsplit : between = before ++ [i] := by
      have happend : between ++ rest = (before ++ [i]) ++ rest := by
        rw [← hbetween, htail]
        simp
      exact List.append_cancel_right happend
    subst hsplit
    obtain ⟨hadds, inner, hinner, hopened⟩ :=
      ih before htail fun j hj => hwhole j (List.mem_append_left _ hj)
    have hi := hwhole i (List.mem_append_right _ (List.mem_singleton.mpr rfl))
    have hl : Apart c.instructions front b before i rest :=
      ⟨by rw [heq, htail], hplaced, hnested⟩
    -- this branch closes behind the instruction, so only those inside are closed
    have hdrop : (inner ++ close :: outer).dropWhile (· == i.addr)
        = inner.dropWhile (· == i.addr) ++ close :: outer := dropWhile_append_cons hi.1
    refine ⟨hadds.trans ?_, i.close?.toList ++ inner.dropWhile (· == i.addr), ?_,
      hopened.step hl hb hclose hi.1⟩
    · -- a label needs a branch further in to be in
      have haligned := hruns.aligned (hs.aligned (aligned_start c))
      refine addsFrom_step haligned hstep ?_ ?_ ?_
      · rw [hinner, hdrop, List.length_append, List.length_cons]
        omega
      · intro index hindex
        have hrange : c.endsRange i.addr = true := by rw [Context.endsRange, hindex]
        have hpos := hopened.exists_of_endsRange hl hi.2 hrange
        rw [hinner, List.length_append, List.length_cons]
        omega
      · intro hpending
        have hpos := hopened.exists_of_goal hl hi.2 (hgoal i rest t (hs.trans hruns) hpending)
        rw [hinner, hdrop, List.length_append, List.length_cons]
        omega
    · rw [scopeEnds_step hstep, hinner, hdrop, List.append_assoc]

/-- An instruction is written as `lines` after the rows `front`. -/
def Becomes (c : Context) (i : Instruction) (front lines : List Row) : Prop :=
  ∃ rest s s', Reached c (i :: rest) s ∧ step c s i rest = .ok s' ∧ s.document.rows = front ∧
    s'.document.rows = front ++ lines

/-- A run that succeeds starts with a step that does. -/
theorem exists_step_of_ok {index : Nat} (h : runFrom c s index (i :: rest) = .ok s') :
    ∃ t, step c s i rest = .ok t ∧ runFrom c t (index + 1) rest = .ok s' := by
  rw [runFrom] at h
  cases hstep : step c s i rest with
  | error halt =>
    rw [hstep] at h
    cases h
  | ok t =>
    rw [hstep] at h
    exact ⟨t, rfl, h⟩

/-- A run that gets through comes to one instruction and then to another. -/
theorem exists_steps {front between : List Instruction} {b : Instruction}
    (heq : c.instructions = front ++ b :: (between ++ i :: rest))
    (h : runFrom c (start c) 0 c.instructions = .ok s') :
    ∃ s s₁ t t', Reached c (b :: (between ++ i :: rest)) s ∧
      step c s b (between ++ i :: rest) = .ok s₁ ∧
      Runs c (between ++ i :: rest) s₁ (i :: rest) t ∧ step c t i rest = .ok t' ∧
      Runs c rest t' [] s' := by
  rw [heq] at h
  obtain ⟨s, k, hs, hrun⟩ := runs_of_ok h
  obtain ⟨s₁, hstep, hrun₁⟩ := exists_step_of_ok hrun
  obtain ⟨t, k', ht, hrun'⟩ := runs_of_ok hrun₁
  obtain ⟨t', hstep', hrun₁'⟩ := exists_step_of_ok hrun'
  rw [← List.append_nil rest] at hrun₁'
  obtain ⟨last, k'', hlast, hend⟩ := runs_of_ok hrun₁'
  obtain rfl := Except.ok.inj hend
  rw [List.append_nil] at hlast
  exact ⟨s, s₁, t, t', by unfold Reached; rw [heq]; exact hs, hstep, ht, hstep', hlast⟩

end Screenplay

open Screenplay

variable {name : String} {script : List UInt8} {profile : Profile}

/-- Wherever a run has come, the labels are those of the instructions it has passed. -/
theorem labelled_of_reached {rest : List Instruction} {s : State}
    (h : Reached (scriptContext name script profile) rest s) :
    ∃ before, before ++ rest = Bytecode.decode profile.version true script ∧
      Labelled (scriptContext name script profile) before s := by
  induction h with
  | here => exact ⟨[], rfl, labelled_scriptStart name script profile⟩
  | @step i rest t t' _ hstep ih =>
    obtain ⟨before, heq, hlabelled⟩ := ih
    refine ⟨before ++ [i], by rw [← heq]; simp, ?_⟩
    exact hlabelled.step (Bytecode.decode_placed profile.version true script)
      (Bytecode.decode_meets profile.version script) heq hstep

/-- An instruction that waits for its label is the goal of a jump. -/
theorem isGoal_of_pending {i : Instruction} {rest : List Instruction} {s : State}
    (h : Reached (scriptContext name script profile) (i :: rest) s)
    (hpending : i.addr ∈ s.pendingLabels) :
    IsGoal (Bytecode.decode profile.version true script) i.addr := by
  obtain ⟨before, heq, hlabelled⟩ := labelled_of_reached h
  have hpair := (Bytecode.decode_placed profile.version true script).pairwise
  rw [← heq, List.pairwise_append] at hpair
  exact ((hlabelled.pending i.addr fun j hj => hpair.2.2 j hj i (List.mem_cons_self ..)).mp
    hpending).1

/-- In a complete screenplay of a script with nested branches, what the step of an instruction in
the range of a branch writes is deeper than the `if` of the branch, and so is all in between, as
long as nothing cuts the block of the branch up to there. -/
theorem exists_guarded (hnested : Nested (Bytecode.decode profile.version true script))
    (hcomplete : (transpile name script profile).isComplete = true) {b i : Instruction}
    (hb : b ∈ Bytecode.decode profile.version true script) {before rest : List Instruction}
    (heq : Bytecode.decode profile.version true script = before ++ i :: rest) {close : Nat}
    (hclose : b.close? = some close) (hfrom : b.next ≤ i.addr) (hto : i.addr < close)
    (hwhole : ∀ t, b.next ≤ t → t ≤ i.addr → ¬(scriptContext name script profile).Cuts b t) :
    ∃ t t' front lead header inside lines after,
      Becomes (scriptContext name script profile) b front (lead ++ [header]) ∧
      b.Heads header.statement ∧ Reached (scriptContext name script profile) (i :: rest) t ∧
      step (scriptContext name script profile) t i rest = .ok t' ∧
      t.document.rows = front ++ lead ++ header :: inside ∧
      t'.document.rows = front ++ lead ++ header :: inside ++ lines ∧
      (transpile name script profile).document.rows
        = front ++ lead ++ header :: (inside ++ lines ++ after) ∧
      ∀ r ∈ inside ++ lines, header.depth < r.depth := by
  have hplaced := Bytecode.decode_placed profile.version true script
  obtain ⟨front, between, hl⟩ := exists_apart hplaced hnested hb heq hclose hfrom
  obtain ⟨final, hrun⟩ := exists_scriptRun_of_isComplete hcomplete
  rw [(transpile_of_ok hrun).2]
  obtain ⟨s, s₁, t, t', hs, hbranch, hruns, hstep, hend⟩ := exists_steps hl.eq hrun
  have haligned := hs.aligned (aligned_start _)
  have hs₁ := hs.step hbranch
  have haligned₁ := hs₁.aligned (aligned_start _)
  -- the `if` of the branch, and how deep everything up to the instruction is
  obtain ⟨lead, st, hst, hrows₁⟩ := rows_of_close? haligned hclose hbranch
  have hends := scopeEnds_step hbranch
  generalize s.scopeEnds.dropWhile (· == b.addr) = outer at hrows₁ hends
  rw [hclose] at hends
  change s₁.scopeEnds = close :: outer at hends
  have hwhole' : ∀ j ∈ between ++ [i],
      j.addr < close ∧ ¬(scriptContext name script profile).Cuts b j.addr := by
    intro j hj
    rcases List.mem_append.mp hj with hj | hj
    · have hj' := hl.of_between hj
      have hjnext := j.addr_le_next
      exact ⟨by omega, hwhole j.addr hj'.1 (by omega)⟩
    · rw [List.mem_singleton.mp hj]
      exact ⟨hto, hwhole i.addr hfrom (Nat.le_refl _)⟩
  obtain ⟨⟨deep, hdeep, hdepth⟩, -⟩ := (hruns.step hstep).guarded hs₁ hends hl.eq hl.placed hnested
    hclose (fun i rest s hs => isGoal_of_pending hs) (between ++ [i]) (by simp) hwhole'
  -- of it the lines of the instruction are the last ones
  obtain ⟨inside, hinside, -⟩ := hruns.adds haligned₁
  obtain ⟨lines, hlines, -⟩ := (Runs.step .here hstep).adds (hruns.aligned haligned₁)
  obtain ⟨after, hafter, -⟩ :=
    (hend.adds (((hruns.step hstep).aligned haligned₁))).trans (.closeAll final.document)
  have hsplit : deep = inside ++ lines := by
    rw [hlines, hinside, List.append_assoc] at hdeep
    exact (List.append_cancel_left hdeep).symm
  rw [hsplit] at hdepth
  refine ⟨t, t', s.document.rows, lead, ⟨1 + outer.length, st⟩, inside, lines, after,
    ⟨_, s, s₁, hs, hbranch, rfl, ?_⟩, hst, hs₁.trans hruns, hstep, ?_, ?_, ?_, ?_⟩
  · rw [hrows₁, List.append_assoc]
  · rw [hinside, hrows₁, List.append_assoc]
    rfl
  · rw [hlines, hinside, hrows₁]
    simp
  · rw [hafter, hlines, hinside, hrows₁]
    simp
  · intro r hr
    have hr' := hdepth r hr
    show 1 + outer.length < r.depth
    omega

/-- A screenplay is written from the instructions of a script and their graph. -/
theorem transpile_of_build (name : String) (script : List UInt8) (profile : Profile)
    {graph : BlockGraph}
    (h : BlockGraph.build (Bytecode.decode profile.version true script) = graph) :
    (transpile name script profile).document
        = (ofInstructions name (Bytecode.decode profile.version true script) graph
          profile).document ∧
      (transpile name script profile).isComplete
        = (ofInstructions name (Bytecode.decode profile.version true script) graph
            profile).isComplete := by
  subst h
  exact ⟨rfl, rfl⟩

end Rio
