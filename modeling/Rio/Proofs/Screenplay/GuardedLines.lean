import Rio.Proofs.Screenplay.Menus

/-!
# Guards of lines

What is written in the range of a branch is guarded by its `if` as long as nothing cuts the block
(`exists_guarded`). Nearly all that is written for an instruction is written in its own place. The
exception is the line that introduces a menu: if lines are moved, it stands under the menu, and what
counts for its guards is where the menu is. `Context.WrittenAt c i j` says that something is written
for the instruction `i` in the place of `j`, and

> `transpile_guards`: what is written for an instruction after a branch is guarded by the branch if
> the place where it is written lies in the range of the branch and nothing cuts the block up to
> there.

Both conditions are needed. `guards_lost` has a script where a label cuts the block, and one where a
line in the range of a branch goes with a menu behind it.
-/

namespace Rio

open Renpy (Row Statement)

namespace Screenplay

variable {c : Context} {s s' t : State} {i j : Instruction} {rest before : List Instruction}

/-- Something is written for an instruction in the place of another one: in its own, and if it is
the line that introduces a menu and lines are moved, in the place of the menu. -/
inductive Context.WrittenAt (c : Context) (i : Instruction) : Instruction → Prop where
  | own : c.WrittenAt i i
  | menu {j : Instruction} {before rest : List Instruction} : c.profile.moveSayIntoMenu = true →
      c.instructions = before ++ j :: rest → j.mnemonic = .option → Introduces before i →
      c.WrittenAt i j

/-- The line that introduces a menu comes before it. -/
theorem Introduces.mem {line : Instruction} (h : Introduces before line) : line ∈ before := by
  obtain ⟨between, ⟨⟨earlier, rfl⟩, -⟩, -⟩ := h
  exact List.mem_append_right _ List.mem_cons_self

/-- The place comes no earlier than the instruction. -/
theorem Context.WrittenAt.addr_le {stop : Nat} (h : c.WrittenAt i j)
    (hplaced : Bytecode.Placed stop 0 c.instructions) : i.addr ≤ j.addr := by
  cases h with
  | own => exact Nat.le_refl _
  | menu _ heq _ hintroduces =>
    have hpair := hplaced.pairwise
    rw [heq, List.pairwise_append] at hpair
    have hnext := hpair.2.2 i hintroduces.mem j List.mem_cons_self
    exact Nat.le_trans i.addr_le_next hnext

/-- The step at a menu writes the line that introduces it, if lines are moved. -/
theorem exists_voices_of_introduces (hmove : c.profile.moveSayIntoMenu = true)
    (heq : c.instructions = before ++ j :: rest) (hoption : j.mnemonic = .option)
    (hintroduces : Introduces before i) (ht : Reached c (j :: rest) t)
    (hstep : step c t j rest = .ok s') {lines : List Row}
    (hrows : s'.document.rows = t.document.rows ++ lines) :
    ∃ r ∈ lines, Voices c i r.statement := by
  obtain ⟨before', told, htold, -⟩ := menus_of_reached ht
  obtain rfl : before' = before := List.append_cancel_right (htold.instructions.symm.trans heq)
  obtain ⟨lead, first, added, hadded, -, -, hline, -⟩ :=
    menu_step htold.next_mem hoption htold.held_eq_none hstep
  have hheld : t.held = some i :=
    (htold.held i).mpr ((waiting_iff_introduces hoption).mpr ⟨hmove, hintroduces⟩)
  -- the line is the first statement under the menu
  have hlines : lines.map (·.statement) = lead ++ .menu :: first :: added := by
    unfold Renpy.Document.statements at hadded
    rw [hrows, List.map_append, List.append_assoc] at hadded
    exact List.append_cancel_left hadded
  have hfirst : first ∈ lines.map (·.statement) := by
    rw [hlines]
    simp
  obtain ⟨r, hr, rfl⟩ := List.mem_map.mp hfirst
  exact ⟨r, hr, hline i hheld⟩

end Screenplay

open Screenplay

/-- In a complete screenplay of a script with nested branches, take an instruction `i` after a
branch `b`, and a place `j` where something is written for it. If the place lies in the range of
the branch and nothing cuts the block of the branch up to there, what is written there, the line
of `i` included if it goes with a menu, is deeper than the `if` of the branch, and so is all in
between. So it is skipped if the comparison fails. -/
theorem transpile_guards (name : String) (script : List UInt8) (profile : Profile)
    (hnested : Nested (Bytecode.decode profile.version true script))
    (hcomplete : (transpile name script profile).isComplete = true) {b i j : Instruction}
    (hb : b ∈ Bytecode.decode profile.version true script)
    (hi : i ∈ Bytecode.decode profile.version true script)
    (hj : (scriptContext name script profile).WrittenAt i j) {close : Nat}
    (hclose : b.close? = some close) (hfrom : b.next ≤ i.addr) (hto : j.addr < close)
    (hwhole : ∀ t, b.next ≤ t → t ≤ j.addr → ¬(scriptContext name script profile).Cuts b t) :
    ∃ front lead header inside lines after,
      Becomes (scriptContext name script profile) b front (lead ++ [header]) ∧
      b.Heads header.statement ∧
      Becomes (scriptContext name script profile) j (front ++ lead ++ header :: inside) lines ∧
      (j ≠ i → ∃ r ∈ lines, Voices (scriptContext name script profile) i r.statement) ∧
      (transpile name script profile).document.rows
        = front ++ lead ++ header :: (inside ++ lines ++ after) ∧
      (∀ r ∈ inside ++ lines, header.depth < r.depth) ∧
      Renpy.skipBlock header.depth (inside ++ lines ++ after)
        = Renpy.skipBlock header.depth after := by
  have hplaced := Bytecode.decode_placed profile.version true script
  have hfrom' : b.next ≤ j.addr := Nat.le_trans hfrom (hj.addr_le hplaced)
  -- the step at the place, and the line of the instruction among what it writes
  have hplace : ∃ before rest, Bytecode.decode profile.version true script = before ++ j :: rest ∧
      ∀ t t' lines, Reached (scriptContext name script profile) (j :: rest) t →
        step (scriptContext name script profile) t j rest = .ok t' →
        t'.document.rows = t.document.rows ++ lines →
        j ≠ i → ∃ r ∈ lines, Voices (scriptContext name script profile) i r.statement := by
    cases hj with
    | own =>
      obtain ⟨before, rest, heq⟩ := List.append_of_mem hi
      exact ⟨before, rest, heq, fun _ _ _ _ _ _ hne => absurd rfl hne⟩
    | @menu _ before rest hmove heq hoption hintroduces =>
      exact ⟨before, rest, heq, fun t t' lines ht hstep hrows _ =>
        exists_voices_of_introduces hmove heq hoption hintroduces ht hstep hrows⟩
  obtain ⟨before, rest, heq, hline⟩ := hplace
  obtain ⟨t, t', front, lead, header, inside, lines, after, hbranch, hheads, ht, hstep, hrows,
    hrows', hdocument, hdepth⟩ := exists_guarded hnested hcomplete hb heq hclose hfrom' hto hwhole
  have hlines : t'.document.rows = t.document.rows ++ lines := by
    rw [hrows', hrows]
  exact ⟨front, lead, header, inside, lines, after, hbranch, hheads,
    ⟨rest, t, t', ht, hstep, hrows, hrows'⟩, hline t t' lines ht hstep hlines, hdocument, hdepth,
    Renpy.skipBlock_append hdepth after⟩

/-- A branch whose range has another one in it, with a jump back to the second pause in there. -/
def jumpFurtherIn : List UInt8 :=
  [0x01, 3, 1, 0, 0, 0, 25, 0, 0, 0, 0, 0x01, 3, 2, 0, 0, 0, 8, 0, 0, 0, 0, 0x82, 100, 0, 0,
   0x82, 200, 0, 0, 0x06, 26, 0, 0, 0, 0, 0x0a, 0]

/-- The graph of the first script: two branches, and a jump into the inner one. -/
theorem build_jumpFurtherIn :
    BlockGraph.build (Bytecode.decode ({} : Profile).version true jumpFurtherIn)
      = ⟨[⟨0, some 11, .conditional, some 11, some 36, [], []⟩,
          ⟨11, some 22, .conditional, some 22, some 30, [], [0]⟩,
          ⟨22, some 26, .linear, some 26, none, [], [11]⟩,
          ⟨26, some 30, .linear, some 30, none, [], [22, 30]⟩,
          ⟨30, some 36, .jump, some 26, none, [], [11]⟩,
          ⟨36, some 38, .leave, none, none, [], [0]⟩]⟩ :=
  BlockGraph.build_eq_of_perm (by decide +kernel) (by decide)

/-- Its outer branch. -/
def outerBranch : Instruction :=
  ⟨0, 11, some 1, .jeq, [.int 1, .int 0, .int 25]⟩

/-- A branch, a line, and the menu that the line introduces. The branch goes `offset` bytes on. -/
def menuAfterLine (offset : UInt8) : List UInt8 :=
  [0x01, 3, 1, 0, 0, 0, offset, 0, 0, 0, 0, 0x41, 0, 0, 0, 0x61, 0,
   0x02, 1, 0, 0, 0, 0x78, 0, 0, 1, 0, 0, 0x62, 0]

/-- The branch that goes over the line and the menu. -/
def branchOverMenu : Instruction :=
  ⟨0, 11, some 1, .jeq, [.int 1, .int 0, .int 19]⟩

/-- The line. -/
def lineBeforeMenu : Instruction :=
  ⟨11, 6, some 0x41, .textN, [.int 0, .bytes [0x61]]⟩

/-- The menu. -/
def menuOfLine : Instruction :=
  ⟨17, 13, some 2, .option, [.options [⟨0, [0x78], 0, 1, 0, [0x62]⟩]]⟩

/-- In the first script the label is set in the inner block, so the outer one still guards the pause
after it. In the second one the branch goes over the menu, so it guards the line under the menu. -/
theorem guards_of_jumpFurtherIn :
    (∃ front lead header inside lines after,
      Becomes (scriptContext "a" jumpFurtherIn {}) outerBranch front (lead ++ [header]) ∧
      outerBranch.Heads header.statement ∧
      Becomes (scriptContext "a" jumpFurtherIn {}) ⟨26, 4, some 130, .sleep, [.int 200]⟩
        (front ++ lead ++ header :: inside) lines ∧
      (transpile "a" jumpFurtherIn {}).document.rows
        = front ++ lead ++ header :: (inside ++ lines ++ after) ∧
      (∀ r ∈ inside ++ lines, header.depth < r.depth) ∧
      Renpy.skipBlock header.depth (inside ++ lines ++ after)
        = Renpy.skipBlock header.depth after) ∧
    ∃ front lead header inside lines after,
      (transpile "a" (menuAfterLine 19) {}).document.rows
        = front ++ lead ++ header :: (inside ++ lines ++ after) ∧
      (∃ r ∈ lines, Voices (scriptContext "a" (menuAfterLine 19) {}) lineBeforeMenu r.statement) ∧
      ∀ r ∈ inside ++ lines, header.depth < r.depth := by
  constructor
  · have hcomplete : (transpile "a" jumpFurtherIn {}).isComplete = true := by
      rw [(transpile_of_build "a" jumpFurtherIn {} build_jumpFurtherIn).2]
      decide +kernel
    have hclose : outerBranch.close? = some 36 := by decide +kernel
    have hwhole : ∀ t < 27, 11 ≤ t →
        ¬(scriptContext "a" jumpFurtherIn {}).Cuts outerBranch t := by
      decide +kernel
    obtain ⟨front, lead, header, inside, lines, after, hbranch, hheads, hpause, -, hguarded⟩ :=
      transpile_guards "a" jumpFurtherIn {} (i := ⟨26, 4, some 130, .sleep, [.int 200]⟩)
        ⟨by decide +kernel, by decide +kernel⟩ hcomplete
        (by decide +kernel) (by decide +kernel) .own hclose
        (by decide) (by decide)
        fun t hfrom hto => hwhole t (Nat.lt_succ_of_le hto) hfrom
    exact ⟨front, lead, header, inside, lines, after, hbranch, hheads, hpause, hguarded⟩
  · have hbuild : BlockGraph.build (Bytecode.decode ({} : Profile).version true (menuAfterLine 19))
        = ⟨[⟨0, some 11, .conditional, some 11, some 30, [], []⟩,
            ⟨11, some 30, .procedure, none, none, ["b"], [0]⟩]⟩ :=
      BlockGraph.build_eq_of_perm (by decide +kernel) (by decide)
    have hcomplete : (transpile "a" (menuAfterLine 19) {}).isComplete = true := by
      rw [(transpile_of_build "a" (menuAfterLine 19) {} hbuild).2]
      decide +kernel
    have hclose : branchOverMenu.close? = some 30 := by decide +kernel
    have hwhole : ∀ t < 18, 11 ≤ t →
        ¬(scriptContext "a" (menuAfterLine 19) {}).Cuts branchOverMenu t := by
      decide +kernel
    have hdecode : Bytecode.decode ({} : Profile).version true (menuAfterLine 19)
        = [branchOverMenu, lineBeforeMenu] ++ menuOfLine :: [.marker 30 .endOfStream] := by
      decide +kernel
    have hintroduces : Introduces [branchOverMenu, lineBeforeMenu] lineBeforeMenu :=
      ⟨[], ⟨⟨[branchOverMenu], rfl⟩, rfl, fun _ hk => (by cases hk)⟩, fun _ hk => (by cases hk)⟩
    obtain ⟨front, lead, header, inside, lines, after, -, -, -, hline, hdocument, hdepth, -⟩ :=
      transpile_guards "a" (menuAfterLine 19) {}
        ⟨by decide +kernel, by decide +kernel⟩ hcomplete
        (by decide +kernel) (by decide +kernel) (.menu rfl hdecode rfl hintroduces) hclose
        (by decide) (by decide)
        fun t hfrom hto => hwhole t (Nat.lt_succ_of_le hto) hfrom
    exact ⟨front, lead, header, inside, lines, after, hdocument, hline (by decide), hdepth⟩

/-- A branch over two pauses, and a jump back to the second one. -/
def jumpIntoBranch : List UInt8 :=
  [0x01, 3, 1, 0, 0, 0, 8, 0, 0, 0, 0, 0x82, 100, 0, 0, 0x82, 200, 0, 0, 0x06, 15, 0, 0, 0, 0]

/-- In the first script the second pause is in the range of the branch, but it is written after
the label that ends the block of the `if`. In the second one the line is in the range of the
branch, but it is written under the menu behind it. Both are reached when the comparison fails. -/
theorem guards_lost :
    (Nested (Bytecode.decode .standard true jumpIntoBranch) ∧
      (∀ i ∈ Bytecode.decode .standard true jumpIntoBranch, ∀ t ∈ i.goal?,
        ∃ j ∈ Bytecode.decode .standard true jumpIntoBranch, j.addr = t) ∧
      (transpile "a" jumpIntoBranch {}).isComplete = true ∧
      (∃ b ∈ Bytecode.decode .standard true jumpIntoBranch, b.next = 11 ∧ b.close? = some 19) ∧
      (∃ i ∈ Bytecode.decode .standard true jumpIntoBranch, i.addr = 15 ∧ i.int? 0 = some 200) ∧
      (transpile "a" jumpIntoBranch {}).document.rows.map (fun r => (r.depth, r.statement.text))
        = [(0, "label RIO_A:"), (1, "if will_flagbank[1] == 0:"), (2, "pause 0.1"),
            (1, "label RIO_A_15:"), (2, "pause 0.2"), (1, "jump RIO_A_15")] ∧
      (Renpy.skipBlock 1 ((transpile "a" jumpIntoBranch {}).document.rows.drop 2)).map
          (fun r => r.statement.text)
        = ["label RIO_A_15:", "pause 0.2", "jump RIO_A_15"]) ∧
    Nested (Bytecode.decode .standard true (menuAfterLine 6)) ∧
      (∀ i ∈ Bytecode.decode .standard true (menuAfterLine 6), i.goal? = none) ∧
      (transpile "a" (menuAfterLine 6) {}).isComplete = true ∧
      (∃ b ∈ Bytecode.decode .standard true (menuAfterLine 6), b.next = 11 ∧ b.close? = some 17) ∧
      lineBeforeMenu ∈ Bytecode.decode .standard true (menuAfterLine 6) ∧
      (transpile "a" (menuAfterLine 6) {}).document.rows.map (fun r => (r.depth, r.statement.text))
        = [(0, "label RIO_A:"), (1, "if will_flagbank[1] == 0:"), (2, "pass"), (1, "menu:"),
            (2, "\"a\""), (2, "\"x\" if will_flagbank[1]:"), (3, "jump RIO_B")] ∧
      (Renpy.skipBlock 1 ((transpile "a" (menuAfterLine 6) {}).document.rows.drop 2)).map
          (fun r => r.statement.text)
        = ["menu:", "\"a\"", "\"x\" if will_flagbank[1]:", "jump RIO_B"] := by
  -- the jump of the first script divides the block of the pauses, and the branch of the second one
  -- leads to the menu
  have hjump : BlockGraph.build (Bytecode.decode ({} : Profile).version true jumpIntoBranch)
      = ⟨[⟨0, some 11, .conditional, some 11, some 19, [], []⟩,
          ⟨11, some 15, .linear, some 15, none, [], [0]⟩,
          ⟨15, some 19, .linear, some 19, none, [], [11, 19]⟩,
          ⟨19, some 25, .jump, some 15, none, [], [0]⟩]⟩ :=
    BlockGraph.build_eq_of_perm (by decide +kernel) (by decide)
  have hmenu : BlockGraph.build (Bytecode.decode ({} : Profile).version true (menuAfterLine 6))
      = ⟨[⟨0, some 11, .conditional, some 11, some 17, [], []⟩,
          ⟨11, some 17, .linear, some 17, none, [], [0]⟩,
          ⟨17, some 30, .procedure, none, none, ["b"], [0]⟩]⟩ :=
    BlockGraph.build_eq_of_perm (by decide +kernel) (by decide)
  refine ⟨⟨⟨by decide +kernel, by decide +kernel⟩, by decide +kernel, ?_, by decide +kernel,
    by decide +kernel, ?_⟩, ⟨by decide +kernel, by decide +kernel⟩, by decide +kernel, ?_,
    by decide +kernel, by decide +kernel, ?_⟩
  · rw [(transpile_of_build "a" jumpIntoBranch {} hjump).2]
    decide +kernel
  · rw [(transpile_of_build "a" jumpIntoBranch {} hjump).1]
    decide +kernel
  · rw [(transpile_of_build "a" (menuAfterLine 6) {} hmenu).2]
    decide +kernel
  · rw [(transpile_of_build "a" (menuAfterLine 6) {} hmenu).1]
    decide +kernel

end Rio
