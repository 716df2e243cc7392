import Rio.Proofs.Screenplay.Frame

/-!
# Branches as blocks

What the rows of a structured script have to do with its addresses. A frame fits an address if its
open branches close in order, none of them before the address, each where a branch that lies
behind says. A `Spot` is a frame that fits the address of the instructions to come. Three facts
lead from one spot to the next:

* `Spot.next`: one instruction further on the frame fits again;
* `Spot.skip`: skipping the block of a branch leads to the rows of the instruction where it closes;
* `Spot.seek`: looking for the label of a goal leads to the rows of the instruction at the goal.

The inner branches close first because a script is structured; a label finds all of them closed
because no jump leads into one.
-/

namespace Rio.Screenplay

open Renpy (Label Row Statement)
open Bytecode (Placed)

/-! ## Reaching an address twice -/

namespace Frame

theorem ends_closeAt (f : Frame) (addr : Nat) :
    (f.closeAt addr).ends = f.ends.dropWhile (· == addr) := by
  unfold closeAt
  split
  · rfl
  · next hhead => exact (closed_of_head?_ne hhead).2.symm

theorem pending_closeAt (f : Frame) (addr : Nat) : (f.closeAt addr).pending = f.pending := by
  unfold closeAt
  split <;> rfl

theorem ends_labelAt (f : Frame) (addr : Nat) : (f.labelAt addr).ends = f.ends := by
  unfold labelAt
  split <;> rfl

theorem pending_labelAt (f : Frame) (addr : Nat) :
    (f.labelAt addr).pending = f.pending.filter (· != addr) := by
  unfold labelAt
  split
  · rfl
  · next hmem =>
    symm
    rw [List.filter_eq_self]
    intro a ha
    have hne : a ≠ addr := by
      rintro rfl
      exact hmem (List.contains_iff_mem.mpr ha)
    simpa using hne

/-- Reaching an address closes the branches that end there. -/
theorem ends_reach (f : Frame) (addr : Nat) :
    (f.reach addr).ends = f.ends.dropWhile (· == addr) := by
  rw [reach, ends_labelAt, ends_closeAt]

theorem pending_reach (f : Frame) (addr : Nat) :
    (f.reach addr).pending = f.pending.filter (· != addr) := by
  rw [reach, pending_labelAt, pending_closeAt]

/-- Where no branch closes, nothing is closed. -/
theorem closeAt_of_ne {f : Frame} {addr : Nat} (h : f.ends.head? ≠ some addr) :
    f.closeAt addr = f ∧ f.closing addr = [] := by
  unfold closeAt closing
  rw [if_neg h, if_neg h]
  exact ⟨rfl, rfl⟩

/-- Where no label is needed, none is set. -/
theorem labelAt_of_notMem {f : Frame} {addr : Nat} (h : addr ∉ f.pending) (name : String) :
    f.labelAt addr = f ∧ f.labelling name addr = [] := by
  have hcontains : ¬f.pending.contains addr = true := by simpa using h
  unfold labelAt labelling
  rw [if_neg hcontains, if_neg hcontains]
  exact ⟨rfl, rfl⟩

theorem head?_dropWhile_ne (ends : List Nat) (addr : Nat) :
    (ends.dropWhile (· == addr)).head? ≠ some addr := by
  intro h
  have := List.head?_dropWhile_not (· == addr) ends
  rw [h] at this
  simp at this

/-- Where branches close in order, those that are left after an address close further on. -/
theorem lt_of_mem_dropWhile {ends : List Nat} {addr x : Nat} (hsorted : ends.Pairwise (· ≤ ·))
    (hahead : ∀ y ∈ ends, addr ≤ y) (hx : x ∈ ends.dropWhile (· == addr)) : addr < x := by
  have hsub : (ends.dropWhile (· == addr)).Sublist ends := List.dropWhile_sublist _
  have hleft : (ends.dropWhile (· == addr)).Pairwise (· ≤ ·) := hsorted.sublist hsub
  have hne := head?_dropWhile_ne ends addr
  cases hdrop : ends.dropWhile (· == addr) with
  | nil =>
    rw [hdrop] at hx
    exact absurd hx (by simp)
  | cons y outer =>
    rw [hdrop] at hx hsub hleft hne
    -- the innermost one that is left is not at the address, and the others are no nearer
    have hy : addr < y := by
      have hle := hahead y (hsub.mem (List.mem_cons_self ..))
      have hne' : y ≠ addr := by simpa using hne
      omega
    rcases List.mem_cons.mp hx with rfl | hx'
    · exact hy
    · exact Nat.lt_of_lt_of_le hy (List.rel_of_pairwise_cons hleft hx')

variable (p : Profile) (name : String) (f : Frame) (i : Instruction) (rest : List Instruction)

/-- Branches that are closed at an address need not be closed again. -/
theorem rows_closeAt :
    f.rows p name (i :: rest)
      = f.closing i.addr ++ (f.closeAt i.addr).rows p name (i :: rest) := by
  have hne : (f.closeAt i.addr).ends.head? ≠ some i.addr := by
    rw [ends_closeAt]
    exact head?_dropWhile_ne _ _
  obtain ⟨hclose, hclosing⟩ := closeAt_of_ne hne
  simp only [rows, reaching, reach, hclose, hclosing, List.nil_append, List.append_assoc]

/-- Nor need a label be set again. -/
theorem rows_reach :
    f.rows p name (i :: rest)
      = f.reaching name i.addr ++ (f.reach i.addr).rows p name (i :: rest) := by
  have hne : (f.reach i.addr).ends.head? ≠ some i.addr := by
    rw [ends_reach]
    exact head?_dropWhile_ne _ _
  obtain ⟨hclose, hclosing⟩ := closeAt_of_ne hne
  have hset : i.addr ∉ (f.reach i.addr).pending := by
    rw [pending_reach]
    simp
  obtain ⟨hlabel, hlabelling⟩ := labelAt_of_notMem hset name
  have hreach : (f.reach i.addr).reach i.addr = f.reach i.addr := by
    rw [reach, hclose, hlabel]
  have hreaching : (f.reach i.addr).reaching name i.addr = [] := by
    rw [reaching, hclosing, hclose, hlabelling, List.append_nil]
  simp only [rows, hreach, hreaching, List.nil_append]

end Frame

/-! ## Frames at an address -/

/-- A frame that the instructions up to an address can have led to. -/
structure Frame.Fits (l : List Instruction) (f : Frame) (addr : Nat) : Prop where
  /-- The inner branches close first. -/
  sorted : f.ends.Pairwise (· ≤ ·)
  ahead : ∀ x ∈ f.ends, addr ≤ x
  opened : ∀ x ∈ f.ends, ∃ b ∈ l, b.close? = some x ∧ b.next ≤ addr
  goals : ∀ goal ∈ f.pending, ∃ i ∈ l, i.goal? = some goal

namespace Frame.Fits

variable {p : Profile} {name : String} {l : List Instruction} {stop addr : Nat} {f : Frame}

/-- After reaching an address the open branches close further on. -/
theorem lt_of_mem_reach (h : f.Fits l addr) {x : Nat} (hx : x ∈ (f.reach addr).ends) :
    addr < x := by
  rw [ends_reach] at hx
  exact lt_of_mem_dropWhile h.sorted h.ahead hx

/-- Branches may be closed and labels set. -/
theorem of_sublist (h : f.Fits l addr) {g : Frame} (hends : g.ends.Sublist f.ends)
    (hpending : ∀ goal ∈ g.pending, goal ∈ f.pending) : g.Fits l addr :=
  ⟨h.sorted.sublist hends, fun x hx => h.ahead x (hends.mem hx),
    fun x hx => h.opened x (hends.mem hx), fun goal hgoal => h.goals goal (hpending goal hgoal)⟩

theorem closeAt (h : f.Fits l addr) : (f.closeAt addr).Fits l addr := by
  apply h.of_sublist
  · rw [ends_closeAt]
    exact List.dropWhile_sublist _
  · intro goal hgoal
    rwa [pending_closeAt] at hgoal

/-- Reaching an address takes branches and goals away, and adds none. -/
theorem reach (h : f.Fits l addr) : (f.reach addr).Fits l addr := by
  apply h.of_sublist
  · rw [ends_reach]
    exact List.dropWhile_sublist _
  · intro goal hgoal
    rw [pending_reach] at hgoal
    exact (List.mem_filter.mp hgoal).1

/-- A goal depends on no branch, so none is open when its label is set. -/
theorem ends_eq_nil_of_pending (h : f.Fits l addr) (hl : Structured p name l)
    (hmem : addr ∈ f.pending) : (f.reach addr).ends = [] := by
  cases hends : (f.reach addr).ends with
  | nil => rfl
  | cons x outer =>
    have hx : x ∈ (f.reach addr).ends := hends ▸ List.mem_cons_self ..
    have hlt := h.lt_of_mem_reach hx
    obtain ⟨b, hb, hclose, hnext⟩ := h.reach.opened x hx
    obtain ⟨i, hi, hgoal⟩ := h.goals addr hmem
    rcases (hl.of_goal? hi hgoal).2 b hb x hclose with h' | h' <;> omega

/-- The instructions up to the next one lead to a frame that fits there. -/
theorem mono (h : f.Fits l addr) {next : Nat} (hle : addr ≤ next)
    (hahead : ∀ x ∈ f.ends, next ≤ x) : f.Fits l next := by
  refine ⟨h.sorted, hahead, fun x hx => ?_, h.goals⟩
  obtain ⟨b, hb, hclose, hnext⟩ := h.opened x hx
  exact ⟨b, hb, hclose, Nat.le_trans hnext hle⟩

/-- A branch ends behind the branches in it, since the script is nested. -/
theorem perform (h : f.Fits l addr) (hl : Structured p name l) (hplaced : Placed stop 0 l)
    {i : Instruction} (hi : i ∈ l) (haddr : i.addr = addr) (hlt : ∀ x ∈ f.ends, addr < x)
    {o : Operation} (ho : i.operation? p = some o) : (f.perform o).Fits l i.next := by
  have hle : addr ≤ i.next := haddr ▸ Nat.le_add_right _ _
  -- branches close at instructions, so none closes within this one
  have hahead : ∀ x ∈ f.ends, i.next ≤ x := by
    intro x hx
    obtain ⟨b, hb, hclose, -⟩ := h.opened x hx
    obtain ⟨-, j, hj, rfl⟩ := hl.of_close? hb hclose
    have := hlt _ hx
    rcases hplaced.not_inside i hi j hj with h' | h'
    · omega
    · exact h'
  have hof := Instruction.of_operation? ho
  have hnext := h.mono hle hahead
  cases o with
  | branch reference cmp value close =>
    obtain ⟨-, -, -, hclose⟩ := hof
    have hforward := (hl.of_close? hi hclose).1
    refine ⟨List.Pairwise.cons ?_ h.sorted, ?_, ?_, h.goals⟩
    · intro x hx
      obtain ⟨b, hb, hclose', hbnext⟩ := h.opened x hx
      exact hl.nests b hb x hclose' i hi close hclose (haddr ▸ hbnext) (haddr ▸ hlt x hx)
    · intro x hx
      rcases List.mem_cons.mp hx with rfl | hx
      · exact hforward
      · exact hahead x hx
    · intro x hx
      rcases List.mem_cons.mp hx with rfl | hx
      · exact ⟨i, hi, hclose, Nat.le_refl _⟩
      · exact hnext.opened x hx
  | jump goal =>
    refine ⟨hnext.sorted, hnext.ahead, hnext.opened, fun t ht => ?_⟩
    simp only [Frame.perform] at ht
    split at ht
    · exact h.goals t ht
    · rcases List.mem_cons.mp ht with rfl | ht
      · exact ⟨i, hi, hof.2⟩
      · exact h.goals t ht
  | leave script | ret | pause ms =>
    exact ⟨hnext.sorted, hnext.ahead, hnext.opened, hnext.goals⟩

end Frame.Fits

/-! ## Rows that an instruction adds -/

namespace Frame

variable {p : Profile} {name : String} {f : Frame} {addr : Nat} {r : Row}

theorem eq_of_mem_filling (h : r ∈ f.filling) : r = ⟨f.depth, .pass⟩ := by
  unfold filling at h
  split at h
  · exact absurd h (by simp)
  · exact List.mem_singleton.mp h

theorem eq_of_mem_closing (h : r ∈ f.closing addr) : r = ⟨f.depth, .pass⟩ := by
  unfold closing at h
  split at h
  · exact eq_of_mem_filling h
  · exact absurd h (by simp)

theorem of_mem_labelling (h : r ∈ f.labelling name addr) :
    r.statement = .pass ∨ r.statement = .label (.address name addr) := by
  unfold labelling at h
  split at h
  · rcases List.mem_append.mp h with h | h
    · exact Or.inl (by rw [eq_of_mem_filling h])
    · exact Or.inr (by rw [List.mem_singleton.mp h])
  · exact absurd h (by simp)

/-- In front of an instruction stand only `pass` and its label. -/
theorem of_mem_reaching (h : r ∈ f.reaching name addr) :
    r.statement = .pass ∨ r.statement = .label (.address name addr) := by
  rcases List.mem_append.mp h with h | h
  · exact Or.inl (by rw [eq_of_mem_closing h])
  · exact of_mem_labelling h

/-- Only `pass` and labels are written on the way. -/
theorem isSilent_of_mem_reaching (h : r ∈ f.reaching name addr) : r.IsSilent := by
  rcases of_mem_reaching h with h | h
  · exact Or.inl h
  · exact Or.inr ⟨_, h⟩

theorem sets_of_mem_reaching (h : r ∈ f.reaching name addr) {text : String}
    (hsets : r.sets text = true) : text = (Label.address name addr).text := by
  rcases of_mem_reaching h with h | h
  · simp [Row.sets, Row.label?, h] at hsets
  · simp only [Row.sets, Row.label?, h, beq_iff_eq, Option.some.injEq] at hsets
    exact hsets.symm

theorem sets_statement (o : Operation) (depth : Nat) (text : String) :
    Row.sets ⟨depth, o.statement name⟩ text = false := by
  cases o <;> rfl

/-- All labels that a script becomes are those of its addresses. -/
theorem sets_of_mem_rows {l : List Instruction} (h : r ∈ f.rows p name l) {text : String}
    (hsets : r.sets text = true) : ∃ a, text = (Label.address name a).text := by
  induction l generalizing f with
  | nil =>
    rw [eq_of_mem_filling h] at hsets
    cases hsets
  | cons i rest ih =>
    rcases List.mem_append.mp h with h | h
    · exact ⟨i.addr, sets_of_mem_reaching h hsets⟩
    · split at h
      · next o _ =>
        rcases List.mem_cons.mp h with rfl | h
        · rw [sets_statement] at hsets
          cases hsets
        · exact ih h
      · exact ih h

/-- The next row is in a block that is open. -/
theorem depth_head_le (f : Frame) (p : Profile) (name : String) (l : List Instruction) :
    ∀ r ∈ (f.rows p name l).head?, r.depth ≤ f.depth := by
  intro r hr
  cases hfilled : f.filled with
  | true =>
    have hfollows : f.Follows ⟨f.depth, .pass⟩ := by
      rw [Follows, if_pos hfilled]
      exact ⟨rfl, Nat.le_refl _⟩
    exact (hfollows.leads_rows p name l).precedes r hr
  | false =>
    have hfollows : f.Follows ⟨f.ends.length, .label (.script name)⟩ := by
      rw [Follows, if_neg (by simp [hfilled])]
      exact ⟨rfl, rfl⟩
    exact Nat.le_of_eq ((hfollows.leads_rows p name l).precedes r hr)

end Frame

/-! ## Where the player stands -/

/-- A structured script with all its instructions in place. -/
structure Script (p : Profile) (name : String) (stop : Nat) (l : List Instruction) : Prop where
  structured : Structured p name l
  placed : Placed stop 0 l
  means : ∀ i ∈ l, i.IsProper → ∃ o, i.operation? p = some o

/-- A frame and the instructions from an address on. -/
structure Spot (l : List Instruction) (stop addr : Nat) (f : Frame) (rest : List Instruction) :
    Prop where
  placed : Placed stop addr rest
  subset : ∀ i ∈ rest, i ∈ l
  fits : f.Fits l addr

section

variable {p : Profile} {name : String} {l : List Instruction} {stop addr : Nat} {f : Frame}
  {i : Instruction} {rest : List Instruction}

theorem Spot.ne_nil (h : Spot l stop addr f []) : False :=
  absurd h.placed.head_addr (by simp)

/-- One instruction that means something further on. -/
theorem Spot.perform (hs : Script p name stop l) (h : Spot l stop addr f (i :: rest))
    {o : Operation} (ho : i.operation? p = some o) :
    Spot l stop i.next ((f.reach addr).perform o) rest := by
  have hi : i ∈ l := h.subset i (List.mem_cons_self ..)
  refine ⟨?_, fun j hj => h.subset j (List.mem_cons_of_mem _ hj), ?_⟩
  · have hproper := Instruction.isProper_of_operation? ho
    cases h.placed with
    | last => exact absurd rfl hproper.2
    | proper _ _ hrest => exact hrest
    | unterminated _ _ => exact absurd rfl hproper.1
  · exact h.fits.reach.perform hs.structured hs.placed hi h.placed.addr_eq
      (fun x hx => h.fits.lt_of_mem_reach hx) ho

/-- One instruction further on. It adds rows to the innermost block, none of which sets a label, and
may open a branch and need a label. -/
theorem Spot.next (hs : Script p name stop l) (h : Spot l stop addr f (i :: rest))
    (hlast : i.mnemonic ≠ .endOfStream) :
    ∃ main g, f.rows p name (i :: rest) = f.reaching name addr ++ (main ++ g.rows p name rest) ∧
      Spot l stop i.next g rest ∧
      (∀ r ∈ main, r.depth = (f.reach addr).depth ∧ ∀ text, r.sets text = false) ∧
      (∃ inner, g.ends = inner ++ (f.reach addr).ends) ∧
      ∀ goal ∈ (f.reach addr).pending, goal ∈ g.pending := by
  have haddr := h.placed.addr_eq
  cases ho : i.operation? p with
  | some o =>
    refine ⟨[⟨(f.reach addr).depth, o.statement name⟩], _, ?_, h.perform hs ho, ?_, ?_, ?_⟩
    · simp only [Frame.rows, haddr, ho, List.singleton_append]
    · intro r hr
      rw [List.mem_singleton.mp hr]
      exact ⟨rfl, Frame.sets_statement o _⟩
    · cases o with
      | branch reference cmp value close => exact ⟨[close], rfl⟩
      | jump goal | leave script | ret | pause ms => exact ⟨[], rfl⟩
    · intro goal hgoal
      cases o with
      | jump goal' =>
        simp only [Frame.perform]
        split
        · exact hgoal
        · exact List.mem_cons_of_mem _ hgoal
      | branch reference cmp value close | leave script | ret | pause ms => exact hgoal
  | none =>
    -- only the marker of a missing terminator is left, and it takes no bytes
    refine ⟨[], f.reach addr, ?_, ?_, by simp, ⟨[], rfl⟩, fun _ h => h⟩
    · simp only [Frame.rows, haddr, ho, List.nil_append]
    · have hmarker : i.IsProper → False := by
        intro hproper
        obtain ⟨o, ho'⟩ := hs.means i (h.subset i (List.mem_cons_self ..)) hproper
        rw [ho] at ho'
        cases ho'
      obtain ⟨hplaced, hsubset, hfits⟩ := h
      have hrest := fun j hj => hsubset j (List.mem_cons_of_mem _ hj)
      cases hplaced with
      | last => exact absurd rfl hlast
      | proper hproper _ _ => exact absurd hproper hmarker
      | unterminated _ hplaced => exact ⟨hplaced, hrest, hfits.reach⟩

/-- An instruction that starts further on starts after the one that is next, which is not the
end. -/
theorem Spot.of_lt (hs : Script p name stop l) (h : Spot l stop addr f (i :: rest))
    {j : Instruction} (hj : j ∈ l) (hlt : addr < j.addr) :
    i.mnemonic ≠ .endOfStream ∧ i.next ≤ j.addr := by
  have haddr := h.placed.addr_eq
  have hi : i ∈ l := h.subset i (List.mem_cons_self ..)
  constructor
  · intro hm
    have hend := hs.placed.next_le j hj
    unfold Instruction.next at hend
    cases h.placed with
    | last => omega
    | proper hproper _ _ => exact hproper.2 hm
    | unterminated _ _ => cases hm
  · rcases hs.placed.not_inside i hi j hj with h' | h'
    · omega
    · exact h'

/-- Where a branch closes, all branches in it are closed with it, and skipping its block stops. -/
theorem Spot.skip_here (h : Spot l stop addr f (i :: rest)) {inner outer : List Nat}
    (hends : f.ends = inner ++ addr :: outer) :
    Renpy.skipBlock (outer.length + 1) (f.rows p name (i :: rest))
      = (f.closeAt addr).rows p name (i :: rest) := by
  -- what is inside closes no later, and nothing that is open closes earlier
  have hinner : ∀ y ∈ inner, (y == addr) = true := by
    intro y hy
    have hmem : y ∈ f.ends := by
      rw [hends]
      exact List.mem_append_left _ hy
    have hsorted := h.fits.sorted
    rw [hends] at hsorted
    have hle := (List.pairwise_append.mp hsorted).2.2 y hy addr (List.mem_cons_self ..)
    have hge := h.fits.ahead y hmem
    exact beq_iff_eq.mpr (by omega)
  have hclosed : (f.closeAt addr).depth ≤ outer.length + 1 := by
    have hsub : (outer.dropWhile (· == addr)).length ≤ outer.length :=
      (List.dropWhile_sublist _).length_le
    rw [Frame.depth, Frame.ends_closeAt, hends, List.dropWhile_append_of_pos hinner,
      List.dropWhile_cons_of_pos (by simp)]
    omega
  have hclosing : ∀ r ∈ f.closing addr, outer.length + 1 < r.depth := by
    intro r hr
    rw [Frame.eq_of_mem_closing hr]
    simp only [Frame.depth, hends, List.length_append, List.length_cons]
    omega
  rw [Frame.rows_closeAt, h.placed.addr_eq, Renpy.skipBlock_append hclosing]
  apply Renpy.skipBlock_eq_self
  intro r hr
  exact Nat.le_trans (Frame.depth_head_le _ p name _ r hr) hclosed

/-- While a branch stays open, no label is set, and all rows are in its block. -/
theorem Spot.skip_inside (hs : Script p name stop l) (h : Spot l stop addr f (i :: rest)) {x : Nat}
    {inner outer : List Nat} (hends : f.ends = inner ++ x :: outer) (hlt : addr < x)
    (hlast : i.mnemonic ≠ .endOfStream) :
    ∃ g inner', Spot l stop i.next g rest ∧ g.ends = inner' ++ x :: outer ∧
      Renpy.skipBlock (outer.length + 1) (f.rows p name (i :: rest))
        = Renpy.skipBlock (outer.length + 1) (g.rows p name rest) := by
  obtain ⟨main, g, hrows, hspot, hmain, ⟨pushed, hpushed⟩, -⟩ := h.next hs hlast
  obtain ⟨inner', hinner'⟩ : ∃ inner', (f.reach addr).ends = inner' ++ x :: outer := by
    rw [Frame.ends_reach, hends, List.dropWhile_append]
    split
    · have hne : ¬(x == addr) = true := by
        rw [beq_iff_eq]
        omega
      exact ⟨[], List.dropWhile_cons_of_neg hne⟩
    · exact ⟨_, rfl⟩
  -- a goal depends on no branch, but here one is open
  have hlabel : addr ∉ (f.closeAt addr).pending := by
    rw [Frame.pending_closeAt]
    intro hmem
    have hnil := h.fits.ends_eq_nil_of_pending hs.structured hmem
    rw [hinner'] at hnil
    exact absurd hnil (by simp)
  have hreaching : ∀ r ∈ f.reaching name addr, outer.length + 1 < r.depth := by
    rw [Frame.reaching, (Frame.labelAt_of_notMem hlabel name).2, List.append_nil]
    intro r hr
    rw [Frame.eq_of_mem_closing hr]
    simp only [Frame.depth, hends, List.length_append, List.length_cons]
    omega
  have hdeep : ∀ r ∈ main, outer.length + 1 < r.depth := by
    intro r hr
    rw [(hmain r hr).1, Frame.depth, hinner', List.length_append, List.length_cons]
    omega
  refine ⟨g, pushed ++ inner', hspot, by rw [hpushed, hinner', List.append_assoc], ?_⟩
  rw [hrows, Renpy.skipBlock_append hreaching, Renpy.skipBlock_append hdeep]

/-- Skipping the block of a branch leads to where the branch closes. -/
theorem Spot.skip (hs : Script p name stop l) {x : Nat} {outer : List Nat} :
    ∀ {rest : List Instruction} {addr : Nat} {f : Frame} {inner : List Nat},
      Spot l stop addr f rest → f.ends = inner ++ x :: outer →
      ∃ g rest', Renpy.skipBlock (outer.length + 1) (f.rows p name rest) = g.rows p name rest' ∧
        Spot l stop x g rest' := by
  intro rest
  induction rest with
  | nil =>
    intro addr f inner h _
    exact h.ne_nil.elim
  | cons i rest ih =>
    intro addr f inner h hends
    have hx : x ∈ f.ends := by
      rw [hends]
      exact List.mem_append_right _ (List.mem_cons_self ..)
    rcases Nat.eq_or_lt_of_le (h.fits.ahead x hx) with rfl | hlt
    · exact ⟨f.closeAt addr, i :: rest, h.skip_here hends, h.placed, h.subset, h.fits.closeAt⟩
    · -- a branch closes at an instruction, so the end is not yet reached
      obtain ⟨b, hb, hclose, -⟩ := h.fits.opened x hx
      obtain ⟨-, j, hj, rfl⟩ := hs.structured.of_close? hb hclose
      obtain ⟨g, inner', hspot, hends', hskip⟩ :=
        h.skip_inside hs hends hlt (h.of_lt hs hj hlt).1
      obtain ⟨g', rest', hskip', hspot'⟩ := ih hspot hends'
      exact ⟨g', rest', hskip.trans hskip', hspot'⟩

/-- Where the label of a goal is set, the search for it stops after what closes there. -/
theorem Spot.seek_here (h : Spot l stop addr f (i :: rest)) (hmem : addr ∈ f.pending) :
    Renpy.seek (Label.address name addr).text (f.rows p name (i :: rest))
      = ⟨(f.closeAt addr).ends.length, .label (.address name addr)⟩ ::
          (f.reach addr).rows p name (i :: rest) := by
  have hcontains : (f.closeAt addr).pending.contains addr = true := by
    rw [Frame.pending_closeAt]
    exact List.contains_iff_mem.mpr hmem
  have hclosing : ∀ r ∈ f.closing addr, r.sets (Label.address name addr).text = false := by
    intro r hr
    rw [Frame.eq_of_mem_closing hr]
    rfl
  have hfilling : ∀ r ∈ (f.closeAt addr).filling,
      r.sets (Label.address name addr).text = false := by
    intro r hr
    rw [Frame.eq_of_mem_filling hr]
    rfl
  rw [Frame.rows_reach, h.placed.addr_eq, Frame.reaching, Frame.labelling, if_pos hcontains,
    List.append_assoc, List.append_assoc, Renpy.seek_append hclosing, Renpy.seek_append hfilling]
  exact List.dropWhile_cons_of_neg (by simp [Row.sets, Row.label?])

/-- Looking for the label of a goal leads to it, and so to the instruction at the goal. -/
theorem Spot.seek (hs : Script p name stop l) {goal : Nat} :
    ∀ {rest : List Instruction} {addr : Nat} {f : Frame},
      Spot l stop addr f rest → goal ∈ f.pending → addr ≤ goal →
      ∃ r g rest', r.IsSilent ∧
        Renpy.seek (Label.address name goal).text (f.rows p name rest) = r :: g.rows p name rest' ∧
        Spot l stop goal g rest' := by
  intro rest
  induction rest with
  | nil =>
    intro addr f h _ _
    exact h.ne_nil.elim
  | cons i rest ih =>
    intro addr f h hmem hle
    rcases Nat.eq_or_lt_of_le hle with rfl | hlt
    · exact ⟨_, f.reach addr, i :: rest, Or.inr ⟨_, rfl⟩, h.seek_here hmem, h.placed, h.subset,
        h.fits.reach⟩
    · -- another address, so what is set here is another label
      obtain ⟨k, hk, hgoal⟩ := h.fits.goals goal hmem
      obtain ⟨⟨j, hj, rfl⟩, -⟩ := hs.structured.of_goal? hk hgoal
      obtain ⟨hlast, hnext⟩ := h.of_lt hs hj hlt
      obtain ⟨main, g, hrows, hspot, hmain, -, hpending⟩ := h.next hs hlast
      have hreaching : ∀ r ∈ f.reaching name addr,
          r.sets (Label.address name j.addr).text = false := by
        intro r hr
        rw [← Bool.not_eq_true]
        intro hsets
        have := Label.address_inj (Frame.sets_of_mem_reaching hr hsets)
        omega
      -- the goal still waits behind this instruction
      have hstill : j.addr ∈ g.pending := by
        apply hpending
        rw [Frame.pending_reach]
        refine List.mem_filter.mpr ⟨hmem, ?_⟩
        simpa using Nat.ne_of_gt hlt
      obtain ⟨r, g', rest', hsilent, hseek, hspot'⟩ := ih hspot hstill hnext
      refine ⟨r, g', rest', hsilent, ?_, hspot'⟩
      rw [hrows, Renpy.seek_append hreaching, Renpy.seek_append fun r hr => (hmain r hr).2 _, hseek]

end

/-! ## Labels are set once -/

theorem Frame.labels_filling (f : Frame) : f.filling.filterMap Row.label? = [] := by
  rw [List.filterMap_eq_nil_iff]
  intro r hr
  rw [eq_of_mem_filling hr]
  rfl

/-- In front of an instruction its label is set, if it needs one, and no other. -/
theorem Frame.labels_reaching (f : Frame) (name : String) (addr : Nat) :
    (f.reaching name addr).filterMap Row.label?
      = (if addr ∈ f.pending then [addr] else []).map fun a => (Label.address name a).text := by
  have hclosing : (f.closing addr).filterMap Row.label? = [] := by
    unfold closing
    split
    · exact f.labels_filling
    · rfl
  rw [reaching, List.filterMap_append, hclosing, List.nil_append, labelling, pending_closeAt]
  by_cases hmem : addr ∈ f.pending
  · rw [if_pos (List.contains_iff_mem.mpr hmem), if_pos hmem, List.filterMap_append,
      labels_filling]
    rfl
  · rw [if_neg (by simpa using hmem), if_neg hmem]
    rfl

/-- The labels that rows set are those of increasing addresses from `addr` on. -/
def LabelsFrom (name : String) (addr : Nat) (rows : List Row) : Prop :=
  ∃ labelled : List Nat,
    rows.filterMap Row.label? = labelled.map (fun a => (Label.address name a).text) ∧
      labelled.Pairwise (· < ·) ∧ ∀ a ∈ labelled, addr ≤ a

theorem LabelsFrom.mono {name : String} {addr addr' : Nat} {rows : List Row}
    (h : LabelsFrom name addr rows) (hle : addr' ≤ addr) : LabelsFrom name addr' rows := by
  obtain ⟨labelled, hrows, hsorted, hfrom⟩ := h
  exact ⟨labelled, hrows, hsorted, fun a ha => Nat.le_trans hle (hfrom a ha)⟩

/-- The first address that may have its label set from a frame on. -/
def Frame.firstLabel (f : Frame) (addr : Nat) : Nat :=
  if addr ∈ f.pending then addr else addr + 1

theorem LabelsFrom.reaching {name : String} {addr : Nat} {rows : List Row}
    (h : LabelsFrom name (addr + 1) rows) (f : Frame) :
    LabelsFrom name (f.firstLabel addr) (f.reaching name addr ++ rows) := by
  obtain ⟨labelled, hrows, hsorted, hfrom⟩ := h
  refine ⟨(if addr ∈ f.pending then [addr] else []) ++ labelled, ?_, ?_⟩
  · rw [List.filterMap_append, Frame.labels_reaching, hrows, List.map_append]
  · unfold Frame.firstLabel
    by_cases hmem : addr ∈ f.pending
    · rw [if_pos hmem, if_pos hmem]
      refine ⟨List.Pairwise.cons hfrom hsorted, fun a ha => ?_⟩
      rcases List.mem_cons.mp ha with rfl | ha
      · exact Nat.le_refl _
      · exact Nat.le_of_succ_le (hfrom a ha)
    · rw [if_neg hmem, if_neg hmem]
      exact ⟨hsorted, hfrom⟩

/-- The labels of a script are set by increasing address, that of the first only if it needs one. -/
theorem labelsFrom_rows {stop addr : Nat} {l : List Instruction} (h : Placed stop addr l)
    (p : Profile) (name : String) :
    ∀ f : Frame, LabelsFrom name (f.firstLabel addr) (f.rows p name l) := by
  induction h with
  | last =>
    intro f
    have hfilling : LabelsFrom name (stop + 1) (f.reach stop).filling :=
      ⟨[], Frame.labels_filling _, List.Pairwise.nil, by simp⟩
    exact hfilling.reaching f
  | @proper i rest hproper hpos _ ih =>
    intro f
    have hlt : i.addr + 1 ≤ i.next := Nat.add_le_add_left hpos _
    have hlater : ∀ g : Frame, LabelsFrom name (i.addr + 1) (g.rows p name rest) := by
      intro g
      refine (ih g).mono (Nat.le_trans hlt ?_)
      unfold Frame.firstLabel
      split <;> omega
    rw [Frame.rows]
    refine LabelsFrom.reaching ?_ f
    split
    · next o _ =>
      obtain ⟨labelled, hrows, hfacts⟩ := hlater ((f.reach i.addr).perform o)
      refine ⟨labelled, ?_, hfacts⟩
      rw [← hrows]
      exact List.filterMap_cons_none (by cases o <;> rfl)
    · exact hlater _
  | @unterminated i rest _ _ ih =>
    intro f
    -- the marker has set the label that the instruction needs
    have hset : (f.reach i.addr).firstLabel i.addr = i.addr + 1 := by
      unfold Frame.firstLabel
      rw [if_neg]
      rw [Frame.pending_reach]
      simp
    have hlater := ih (f.reach i.addr)
    rw [hset] at hlater
    exact hlater.reaching f

end Rio.Screenplay
