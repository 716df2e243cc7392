import Rio.Proofs.Screenplay.GuardedLines

/-!
# The branches around an instruction

A run remembers where the open branches close. In a script whose branches nest, these are known at
every instruction from the script alone:

> `transpile_scopes`: when the command of an instruction is carried out, the addresses are those
> where the branches close whose range has the instruction, the outermost first, and the lines for
> the instruction start one deeper than there are such branches.

Labels and the lines around ranges of scenes close a block and open one in its place, so they do
not matter.

The invariant of the run (`Runs.scopeEnds_eq`) is about the branches before an instruction that
close behind it. Since they nest, the later ones close first (`Nested.sorted`), and so those that
end at the next instruction are the innermost.
-/

namespace Rio

open Renpy (Entry)

/-- Where the branches among the instructions before an address close whose range has the
address. -/
def enclosing (before : List Instruction) (addr : Nat) : List Nat :=
  before.filterMap fun b => b.close?.filter fun close => decide (b.next ≤ addr) &&
    decide (addr < close)

/-- Where the branches close that close behind an address. -/
def closesBehind (before : List Instruction) (addr : Nat) : List Nat :=
  (before.filterMap (·.close?)).filter fun close => decide (addr < close)

/-- All that comes before an instruction ends there at the latest. -/
theorem enclosing_eq_closesBehind {before : List Instruction} {addr : Nat}
    (h : ∀ b ∈ before, b.next ≤ addr) : enclosing before addr = closesBehind before addr := by
  unfold enclosing closesBehind
  rw [List.filter_filterMap]
  refine List.filterMap_congr fun b hb => ?_
  have hnext := h b hb
  simp only [hnext, decide_true, Bool.true_and]

/-! ## Branches that are open -/

section

variable {stop : Nat} {l before rest : List Instruction} {i k : Instruction}

/-- Of two branches that are open the later one closes first. -/
theorem Nested.sorted (hnested : Nested l) (hplaced : Bytecode.Placed stop 0 l)
    (heq : l = before ++ rest) {addr : Nat} (h : ∀ b ∈ before, b.addr ≤ addr) :
    (closesBehind before addr).Pairwise fun close close' => close' ≤ close := by
  have hpair := hplaced.pairwise
  rw [heq, List.pairwise_append] at hpair
  have hmem : ∀ b ∈ before, b ∈ l := by
    intro b hb
    rw [heq]
    exact List.mem_append_left _ hb
  unfold closesBehind
  rw [List.pairwise_filter, List.pairwise_filterMap]
  refine hpair.1.imp_of_mem ?_
  intro b b' hb hb' hnext close hclose close' hclose' hbehind hbehind'
  refine hnested.nests b (hmem b hb) close hclose b' (hmem b' hb') close' hclose' hnext ?_
  have haddr := h b' hb'
  have hlt := of_decide_eq_true hbehind
  omega

/-- What closes behind an instruction closes at the next one or behind it. -/
theorem Nested.le_of_mem_closesBehind (hnested : Nested l) (hplaced : Bytecode.Placed stop 0 l)
    (heq : l = before ++ k :: i :: rest) {close : Nat}
    (h : close ∈ closesBehind (before ++ [k]) k.addr) : i.addr ≤ close := by
  obtain ⟨hclose, hlt⟩ := List.mem_filter.mp h
  obtain ⟨b, hb, hb'⟩ := List.mem_filterMap.mp hclose
  have hbl : b ∈ l := by
    rw [heq, List.append_cons]
    exact List.mem_append_left _ hb
  obtain ⟨-, j, hj, rfl⟩ := hnested.of_close? hbl hb'
  have hbehind : k.addr < j.addr := of_decide_eq_true hlt
  have hsorted := hplaced.sorted
  rw [heq, List.pairwise_append, List.pairwise_cons, List.pairwise_cons] at hsorted
  rw [heq] at hj
  -- no instruction lies between two that follow each other
  rcases List.mem_append.mp hj with hj | hj
  · have hle := hsorted.2.2 j hj k (List.mem_cons_self ..)
    omega
  · rcases List.mem_cons.mp hj with rfl | hj
    · omega
    · rcases List.mem_cons.mp hj with rfl | hj
      · exact Nat.le_refl _
      · exact hsorted.2.1.2.1 j hj

/-- A branch is open behind itself. -/
theorem Nested.closesBehind_concat (hnested : Nested l) (hplaced : Bytecode.Placed stop 0 l)
    (hk : k ∈ l) (before : List Instruction) :
    closesBehind (before ++ [k]) k.addr = closesBehind before k.addr ++ k.close?.toList := by
  unfold closesBehind
  rw [List.filterMap_append, List.filter_append]
  congr 1
  cases hclose : k.close? with
  | none => simp [hclose]
  | some close =>
    have hnext := (hnested.of_close? hk hclose).1
    have hlt := hplaced.addr_lt_next hk hclose
    have hbehind : k.addr < close := by omega
    simp [hclose, hbehind]

/-- From one instruction to the next, the branches that end there are the innermost ones. -/
theorem Nested.dropWhile_closesBehind (hnested : Nested l) (hplaced : Bytecode.Placed stop 0 l)
    (heq : l = before ++ k :: i :: rest) :
    (closesBehind (before ++ [k]) k.addr).reverse.dropWhile (· == i.addr)
      = (closesBehind (before ++ [k]) i.addr).reverse := by
  have heq' : l = (before ++ [k]) ++ i :: rest := by rw [heq, List.append_cons]
  have hsorted := hplaced.sorted
  rw [heq, List.pairwise_append, List.pairwise_cons] at hsorted
  have hle : k.addr ≤ i.addr := hsorted.2.1.1 i (List.mem_cons_self ..)
  have hbefore : ∀ b ∈ before ++ [k], b.addr ≤ k.addr := by
    intro b hb
    rcases List.mem_append.mp hb with hb | hb
    · exact hsorted.2.2 b hb k (List.mem_cons_self ..)
    · rw [List.mem_singleton.mp hb]
  have hahead : ∀ close ∈ closesBehind (before ++ [k]) k.addr, i.addr ≤ close :=
    fun close hclose => hnested.le_of_mem_closesBehind hplaced heq hclose
  have hprefix : (closesBehind (before ++ [k]) k.addr).reverse.Pairwise fun close close' =>
      (close' == i.addr) = true → (close == i.addr) = true := by
    rw [List.pairwise_reverse]
    refine (hnested.sorted hplaced heq' hbefore).imp_of_mem ?_
    intro close close' _ hclose' hinner heqi
    rw [beq_iff_eq] at heqi ⊢
    have hle' := hahead close' hclose'
    omega
  -- innermost first, those that close here come before those that close later
  rw [dropWhile_eq_filter hprefix, List.filter_reverse]
  congr 1
  unfold closesBehind at hahead ⊢
  rw [List.filter_filter]
  refine List.filter_congr fun close hclose => ?_
  by_cases hlt : k.addr < close
  · have hge := hahead close (List.mem_filter.mpr ⟨hclose, decide_eq_true hlt⟩)
    rw [decide_eq_true hlt, Bool.and_true]
    rw [Bool.eq_iff_iff]
    simp only [Bool.not_eq_true', beq_eq_false_iff_ne, decide_eq_true_eq]
    omega
  · rw [decide_eq_false hlt, Bool.and_false]
    exact (decide_eq_false (by omega)).symm

end

namespace Screenplay

variable {c : Context} {s : State} {i : Instruction} {before rest : List Instruction} {stop : Nat}

/-! ## Along the run -/

/-- When an instruction is carried out, the branches before it that close behind it are open. -/
theorem Runs.scopeEnds_eq (hplaced : Bytecode.Placed stop 0 c.instructions)
    (hnested : Nested c.instructions) (h : Reached c (i :: rest) s)
    (heq : c.instructions = before ++ i :: rest) :
    (s.arrive c i rest).scopeEnds = (closesBehind before i.addr).reverse := by
  generalize hl : i :: rest = l at h
  induction h generalizing i rest before with
  | here =>
    have hnil : before = [] := by simpa [← hl] using heq
    rw [scopeEnds_arrive, hnil]
    rfl
  | @step k l t t' hruns hstep ih =>
    subst hl
    obtain ⟨front, hfront⟩ := hruns.exists_append
    have hsplit : before = front ++ [k] := by
      rw [heq, List.append_cons front] at hfront
      exact List.append_cancel_right hfront
    subst hsplit
    have hends := ih hfront rfl
    rw [scopeEnds_arrive] at hends
    -- the step opens at most the branch of its own instruction
    have hopened : t'.scopeEnds = (closesBehind (front ++ [k]) k.addr).reverse := by
      have hk : k ∈ c.instructions := by
        rw [hfront]
        exact List.mem_append_right _ (List.mem_cons_self ..)
      rw [scopeEnds_step hstep, hends, hnested.closesBehind_concat hplaced hk, List.reverse_append]
      cases k.close? <;> rfl
    rw [scopeEnds_arrive, hopened]
    exact hnested.dropWhile_closesBehind hplaced hfront

end Screenplay

open Screenplay

/-- Whenever the command of an instruction is carried out in a script with nested branches, the
run remembers where the branches around the instruction close, the outermost first, and the lines
for the instruction start one deeper than there are such branches. None of them is further out,
and they stay in the document. -/
theorem transpile_scopes (name : String) (script : List UInt8) (profile : Profile)
    (hnested : Nested (Bytecode.decode profile.version true script))
    {before rest : List Instruction} {i : Instruction}
    (heq : Bytecode.decode profile.version true script = before ++ i :: rest)
    (hend : i.mnemonic ≠ .endOfStream) {s : State}
    (hreached : Reached (scriptContext name script profile) (i :: rest) s) :
    let c := scriptContext name script profile
    let ready := s.arrive c i rest
    step c s i rest = dispatch c ready i rest ∧
      ready.scopeEnds.reverse = enclosing before i.addr ∧
      ∃ lines after,
        (outcome (dispatch c ready i rest)).document.entries.toList
          = ready.document.entries.toList ++ lines ∧
        (transpile name script profile).document.entries.toList
          = ready.document.entries.toList ++ lines ++ after ∧
        (∀ line ∈ lines.head?, line.depth = 1 + (enclosing before i.addr).length) ∧
        ∀ line ∈ lines, 1 + (enclosing before i.addr).length ≤ line.depth := by
  intro c ready
  have hplaced := Bytecode.decode_placed profile.version true script
  have hstep : step c s i rest = dispatch c ready i rest := step_of_ne_end hend rest
  have hbefore : ∀ b ∈ before, b.next ≤ i.addr := by
    have hpair := hplaced.pairwise
    rw [heq, List.pairwise_append] at hpair
    exact fun b hb => hpair.2.2 b hb i (List.mem_cons_self ..)
  have hends : ready.scopeEnds.reverse = enclosing before i.addr := by
    rw [Runs.scopeEnds_eq hplaced hnested hreached heq, List.reverse_reverse,
      enclosing_eq_closesBehind hbefore]
  -- one block is open for the script, and one for each branch
  have hdepth : ready.document.depth = 1 + (enclosing before i.addr).length := by
    have haligned := (hreached.aligned (aligned_start c)).arrive c i rest
    rw [← hends, List.length_reverse]
    exact haligned.depth_eq
  obtain ⟨lines, hlines, hdeep, hfirst⟩ := writesWithin_step c s hend rest
  obtain ⟨after, hafter⟩ := entries_transpile_of_reached hreached
  rw [hstep] at hlines
  rw [show step (scriptContext name script profile) s i rest = dispatch c ready i rest
    from hstep, hlines] at hafter
  rw [hdepth] at hdeep hfirst
  exact ⟨hstep, hends, lines, after, hlines, hafter.symm, hfirst, hdeep⟩

/-- A script that jumps back into two branches: its second pause has a label in the inner block,
and both branches are open when it is written. -/
theorem scopes_of_jumpFurtherIn :
    let c := scriptContext "a" jumpFurtherIn {}
    Nested c.instructions ∧ ∃ front i rest s, c.instructions = front ++ i :: rest ∧ i.addr = 26 ∧
      Reached c (i :: rest) s ∧ (s.arrive c i rest).scopeEnds.reverse = [36, 30] ∧
      ∃ lines after,
        (outcome (dispatch c (s.arrive c i rest) i rest)).document.entries.toList
          = (s.arrive c i rest).document.entries.toList ++ lines ∧
        (transpile "a" jumpFurtherIn {}).document.entries.toList
          = (s.arrive c i rest).document.entries.toList ++ lines ++ after ∧
        (∀ line ∈ lines.head?, line.depth = 3) ∧ ∀ line ∈ lines, 3 ≤ line.depth := by
  intro c
  have hcomplete : (transpile "a" jumpFurtherIn {}).isComplete = true := by
    rw [(transpile_of_build "a" jumpFurtherIn {} build_jumpFurtherIn).2]
    decide +kernel
  have hnested : Nested (Bytecode.decode ({} : Profile).version true jumpFurtherIn) :=
    ⟨by decide +kernel, by decide +kernel⟩
  have heq : Bytecode.decode ({} : Profile).version true jumpFurtherIn
      = [outerBranch, ⟨11, 11, some 1, .jeq, [.int 2, .int 0, .int 8]⟩,
        ⟨22, 4, some 130, .sleep, [.int 100]⟩]
        ++ ⟨26, 4, some 130, .sleep, [.int 200]⟩
          :: (Bytecode.decode .standard true jumpFurtherIn).drop 4 := by
    decide +kernel
  obtain ⟨s, hs⟩ := exists_reached_of_append hcomplete heq
  obtain ⟨-, hends, hlines⟩ := transpile_scopes "a" jumpFurtherIn {} hnested heq (by decide) hs
  exact ⟨hnested, _, _, _, s, heq, rfl, hs, hends.trans (by decide +kernel), hlines⟩

end Rio
