import Rio.Proofs.Renpy.Playback
import Rio.Proofs.Screenplay.Operation
import Rio.Screenplay.Run

/-!
# The rows that a script becomes

Of the state in which a script is gone through, three things decide how a script of branches,
jumps and pauses is written down: whether the innermost block has received a statement, where the
open branches close, and which addresses still need a label. That is a `Frame`. `Frame.rows`
writes the script down from a frame alone, by recursion on the instructions, and

> `runFrom_rows`: going through the instructions never halts, and adds exactly the rows of the
> frame.

All blocks around the innermost one hold the header of the block in them, so closing several
blocks at once adds at most one `pass`.
-/

namespace Rio.Screenplay

open Renpy (Document Label Row Statement)

/-- The statement that an operation becomes. -/
def Operation.statement (name : String) : Operation → Statement
  | branch reference cmp value _ => .ifFlag reference cmp value
  | jump goal => .jump (.address name goal)
  | leave script => .jump (.script script)
  | ret => .ret
  | pause ms => .pause ms

/-- What decides how the rest of a script is written down. -/
structure Frame where
  /-- Whether the innermost block has a statement. -/
  filled : Bool
  /-- Where the open branches close, the innermost first. -/
  ends : List Nat
  /-- Addresses that need a label. -/
  pending : List Nat
deriving Repr, DecidableEq

namespace Frame

/-- The depth of the innermost block: that of a label, and one more for each open branch. -/
def depth (f : Frame) : Nat :=
  f.ends.length + 1

/-- What an empty block is given when it closes. -/
def filling (f : Frame) : List Row :=
  if f.filled then [] else [⟨f.depth, .pass⟩]

/-- The rows that closing the branches at an address adds. -/
def closing (f : Frame) (addr : Nat) : List Row :=
  if f.ends.head? = some addr then f.filling else []

/-- After closing the branches at an address. -/
def closeAt (f : Frame) (addr : Nat) : Frame :=
  if f.ends.head? = some addr then
    { f with filled := true, ends := f.ends.dropWhile (· == addr) }
  else f

/-- The rows that setting the label of an address adds. -/
def labelling (name : String) (f : Frame) (addr : Nat) : List Row :=
  if f.pending.contains addr then f.filling ++ [⟨f.ends.length, .label (.address name addr)⟩]
  else []

/-- After setting the label of an address. -/
def labelAt (f : Frame) (addr : Nat) : Frame :=
  if f.pending.contains addr then
    { f with filled := false, pending := f.pending.filter (· != addr) }
  else f

/-- The rows before those of the instruction at an address. -/
def reaching (name : String) (f : Frame) (addr : Nat) : List Row :=
  f.closing addr ++ (f.closeAt addr).labelling name addr

/-- In front of the instruction at an address. -/
def reach (f : Frame) (addr : Nat) : Frame :=
  (f.closeAt addr).labelAt addr

/-- After the statement of an operation. -/
def perform (f : Frame) : Operation → Frame
  | .branch _ _ _ close => { f with filled := false, ends := close :: f.ends }
  | .jump goal =>
    { f with
      filled := true
      pending := if f.pending.contains goal then f.pending else goal :: f.pending }
  | _ => { f with filled := true }

/-- The rows of a script from a frame on. -/
def rows (p : Profile) (name : String) (f : Frame) : List Instruction → List Row
  | [] => f.filling
  | i :: rest =>
    f.reaching name i.addr ++
      match i.operation? p with
      | some o =>
        ⟨(f.reach i.addr).depth, o.statement name⟩ :: ((f.reach i.addr).perform o).rows p name rest
      | none => (f.reach i.addr).rows p name rest

end Frame

/-- A state that is in a frame. -/
structure State.Framed (s : State) (f : Frame) : Prop where
  scopes : s.document.scopes = f.filled :: List.replicate f.ends.length true
  ends : s.scopeEnds = f.ends
  pending : s.pendingLabels = f.pending
  inlined : s.inlinedPauses = []

/-! ## Closing blocks and setting labels -/

theorem State.Framed.depth_eq {s : State} {f : Frame} (h : s.Framed f) :
    s.document.depth = f.depth := by
  rw [Document.depth, h.scopes, List.length_cons, List.length_replicate, Frame.depth]

/-- Closing blocks that all hold a statement adds nothing. -/
theorem foldl_closeScope (closed : List Nat) (n : Nat) (s : State)
    (h : s.document.scopes = List.replicate (closed.length + n) true) :
    (closed.foldl (fun s _ => s.closeScope) s).document.scopes = List.replicate n true ∧
      (closed.foldl (fun s _ => s.closeScope) s).document.rows = s.document.rows ∧
      (closed.foldl (fun s _ => s.closeScope) s).pendingLabels = s.pendingLabels ∧
      (closed.foldl (fun s _ => s.closeScope) s).inlinedPauses = s.inlinedPauses := by
  induction closed generalizing s with
  | nil => exact ⟨by simpa using h, rfl, rfl, rfl⟩
  | cons a closed ih =>
    rw [List.length_cons, Nat.add_right_comm, List.replicate_succ] at h
    obtain ⟨hscopes, hrows, hpending, hinlined⟩ := ih s.closeScope (Document.scopes_closeScope h)
    refine ⟨hscopes, hrows.trans ?_, hpending, hinlined⟩
    exact (Document.rows_closeScope h).trans (List.append_nil _)

/-- No branch closes where the innermost one does not. -/
theorem closed_of_head?_ne {ends : List Nat} {addr : Nat} (h : ends.head? ≠ some addr) :
    ends.takeWhile (· == addr) = [] ∧ ends.dropWhile (· == addr) = ends := by
  cases ends with
  | nil => exact ⟨rfl, rfl⟩
  | cons a outer =>
    have hne : ¬(a == addr) = true := by simpa using h
    exact ⟨List.takeWhile_cons_of_neg hne, List.dropWhile_cons_of_neg hne⟩

/-- By induction on the branches that end here. -/
theorem State.Framed.closeBranches {s : State} {f : Frame} (h : s.Framed f) (addr : Nat) :
    (s.closeBranches addr).Framed (f.closeAt addr) ∧
      (s.closeBranches addr).document.rows = s.document.rows ++ f.closing addr := by
  unfold State.closeBranches Frame.closeAt Frame.closing
  dsimp only
  rw [h.ends]
  by_cases hhead : f.ends.head? = some addr
  · -- the innermost block may be empty, the ones around it hold its header
    obtain ⟨outer, hends⟩ := List.head?_eq_some_iff.mp hhead
    rw [if_pos hhead, if_pos hhead, hends, List.takeWhile_cons_of_pos (by simp),
      List.dropWhile_cons_of_pos (by simp), List.foldl_cons]
    have hscopes : s.closeScope.document.scopes
        = List.replicate ((outer.takeWhile (· == addr)).length +
            ((outer.dropWhile (· == addr)).length + 1)) true := by
      have hlen : (outer.takeWhile (· == addr)).length + ((outer.dropWhile (· == addr)).length + 1)
          = f.ends.length := by
        rw [hends, List.length_cons, ← Nat.add_assoc, ← List.length_append,
          List.takeWhile_append_dropWhile]
      rw [hlen]
      exact Document.scopes_closeScope h.scopes
    obtain ⟨hclosed, hrows, hpending, hinlined⟩ := foldl_closeScope _ _ _ hscopes
    refine ⟨⟨hclosed, rfl, hpending.trans h.pending, hinlined.trans h.inlined⟩, hrows.trans ?_⟩
    rw [Frame.filling, ← h.depth_eq]
    exact Document.rows_closeScope h.scopes
  · obtain ⟨htake, hdrop⟩ := closed_of_head?_ne hhead
    rw [if_neg hhead, if_neg hhead, htake, hdrop, List.append_nil]
    exact ⟨⟨h.scopes, rfl, h.pending, h.inlined⟩, rfl⟩

/-- A label closes the innermost block and opens its own. -/
theorem State.Framed.placeLabel {s : State} {f : Frame} (h : s.Framed f) (c : Context)
    (addr : Nat) :
    (s.placeLabel c addr).Framed (f.labelAt addr) ∧
      (s.placeLabel c addr).document.rows = s.document.rows ++ f.labelling c.name addr := by
  unfold State.placeLabel Frame.labelAt Frame.labelling
  rw [h.pending]
  by_cases hmem : f.pending.contains addr = true
  · rw [if_pos hmem, if_pos hmem, if_pos hmem]
    have hclosed : s.document.closeScope.scopes = List.replicate f.ends.length true :=
      Document.scopes_closeScope h.scopes
    refine ⟨⟨?_, h.ends, rfl, h.inlined⟩, ?_⟩
    · -- without an open branch the label stands in no block
      show (s.document.closeScope.header _).scopes = _
      cases hends : f.ends with
      | nil =>
        rw [hends] at hclosed
        simp [Document.header, Document.openScope, Document.statement, hclosed]
      | cons a outer =>
        rw [hends] at hclosed
        exact Document.scopes_header hclosed _
    · show (s.document.closeScope.header _).rows = _
      have hdepth : s.document.closeScope.depth = f.ends.length := by
        rw [Document.depth, hclosed, List.length_replicate]
      rw [Document.rows_header, Document.rows_closeScope h.scopes, hdepth, h.depth_eq,
        List.append_assoc]
      rfl
  · rw [if_neg hmem, if_neg hmem, if_neg hmem, List.append_nil]
    exact ⟨h, rfl⟩

/-! ## One instruction -/

theorem State.Framed.emit {s : State} {f : Frame} (h : s.Framed f) (st : Statement) :
    (s.emit st).Framed { f with filled := true } ∧
      (s.emit st).document.rows = s.document.rows ++ [⟨f.depth, st⟩] := by
  refine ⟨⟨Document.scopes_statement h.scopes st, h.ends, h.pending, h.inlined⟩, ?_⟩
  rw [← h.depth_eq]
  exact s.document.rows_statement st

/-- Comments and reports change no frame. -/
theorem State.Framed.announce {s : State} {f : Frame} (h : s.Framed f) (c : Context)
    (i : Instruction) :
    (announce c s i).Framed f ∧ (announce c s i).document.rows = s.document.rows := by
  unfold Screenplay.announce
  dsimp only
  split
  · exact ⟨⟨h.scopes, h.ends, h.pending, h.inlined⟩, Document.rows_comment _ _⟩
  · exact ⟨⟨h.scopes, h.ends, h.pending, h.inlined⟩, rfl⟩

/-- A branch is read with the comparison that its mnemonic makes. -/
theorem ofInstruction_of_comparison {i : Instruction} {cmp : Comparison} {flag value : Int}
    {close : Nat} (hcmp : i.mnemonic.comparison? = some cmp) (hflag : i.int? 0 = some flag)
    (hvalue : i.int? 1 = some value) (hclose : i.close? = some close) :
    Reading.ofInstruction i = .command (.branch ⟨cmp, flag, value, close⟩) := by
  have hcond : i.mnemonic.isConditional = true := by rw [Mnemonic.isConditional, hcmp]; rfl
  rw [Instruction.close?, if_pos hcond, Option.bind_eq_some_iff] at hclose
  obtain ⟨rel, hrel, hclose⟩ := hclose
  have hbranch : Command.ofBranch i cmp = some (.branch ⟨cmp, flag, value, close⟩) := by
    simp [Command.ofBranch, hflag, hvalue, hrel, hclose]
  unfold Mnemonic.comparison? at hcmp
  unfold Reading.ofInstruction
  split at hcmp
  case h_7 => cases hcmp
  all_goals
    next hm =>
      obtain rfl := Option.some.inj hcmp
      rw [hm, hbranch]
      rfl

/-- An operation never halts, and the frame foretells what it writes. -/
theorem State.Framed.dispatch {s : State} {f : Frame} (h : s.Framed f) {c : Context}
    {i : Instruction} {o : Operation} (ho : i.operation? c.profile = some o)
    (rest : List Instruction) :
    ∃ s', dispatch c s i rest = .ok s' ∧ s'.Framed (f.perform o) ∧
      s'.document.rows = s.document.rows ++ [⟨f.depth, o.statement c.name⟩] := by
  -- the announcement is a comment at most, so the statement is added in the same frame
  obtain ⟨hannounce, hrows⟩ := h.announce c i
  have hof := Instruction.of_operation? ho
  unfold Screenplay.dispatch
  rw [← hrows]
  cases o with
  | branch reference cmp value close =>
    obtain ⟨hcmp, ⟨flag, hflag, hgranted⟩, hvalue, hclose⟩ := hof
    rw [ofInstruction_of_comparison hcmp hflag hvalue hclose]
    refine ⟨_, rfl, ?_⟩
    simp only [branch, hgranted, State.access]
    refine ⟨⟨?_, congrArg _ hannounce.ends, hannounce.pending, hannounce.inlined⟩, ?_⟩
    · exact Document.scopes_header hannounce.scopes _
    · rw [← hannounce.depth_eq]
      exact Document.rows_header _ _
  | jump goal =>
    obtain ⟨hm, hgoal⟩ := hof
    rw [Instruction.goal?, if_pos hm] at hgoal
    have hread : Reading.ofInstruction i = .command (.jump goal) := by
      simp [Reading.ofInstruction, hm, hgoal, Reading.ofOption]
    rw [hread]
    obtain ⟨hframed, hemit⟩ := hannounce.emit (.jump (c.label goal))
    refine ⟨_, rfl, ⟨hframed.scopes, hframed.ends, ?_, hframed.inlined⟩, hemit⟩
    show (if _ then _ else _) = if _ then _ else _
    rw [hframed.pending]
  | leave script =>
    obtain ⟨hm, hscript⟩ := hof
    rw [Instruction.script?, if_pos hm, Option.map_eq_some_iff] at hscript
    obtain ⟨raw, hraw, rfl⟩ := hscript
    have hread : Reading.ofInstruction i = .command (.goto raw) := by
      simp [Reading.ofInstruction, hm, hraw, Reading.ofOption]
    rw [hread]
    exact ⟨_, rfl, hannounce.emit _⟩
  | ret =>
    have hm : i.mnemonic = .ret := hof
    have hread : Reading.ofInstruction i = .command .ret := by simp [Reading.ofInstruction, hm]
    rw [hread]
    exact ⟨_, rfl, hannounce.emit _⟩
  | pause ms =>
    obtain ⟨hm, hms⟩ := hof
    have hread : Reading.ofInstruction i = .command (.sleep (some ms)) := by
      simp [Reading.ofInstruction, hm, hms]
    rw [hread]
    refine ⟨(Screenplay.announce c s i).emit (.pause ms), ?_, hannounce.emit _⟩
    -- no line of dialogue has taken over a pause
    simp [execute, sleep, hannounce.inlined]

/-- Without scenes to skip, an instruction finds the branches closed and the label set. -/
theorem State.Framed.reach {s : State} {f : Frame} (h : s.Framed f) (c : Context) (addr : Nat) :
    ((s.closeBranches addr).placeLabel c addr).Framed (f.reach addr) ∧
      ((s.closeBranches addr).placeLabel c addr).document.rows
        = s.document.rows ++ f.reaching c.name addr := by
  obtain ⟨hclose, hrows⟩ := h.closeBranches addr
  obtain ⟨hlabel, hrows'⟩ := hclose.placeLabel c addr
  exact ⟨hlabel, by rw [hrows', hrows, List.append_assoc, Frame.reaching]⟩

theorem placeSkipMark_of_disabled {c : Context} (hskip : c.profile.adultSkip.enabled = false)
    (s : State) (addr : Nat) : s.placeSkipMark c addr = s := by
  simp [State.placeSkipMark, Context.skipMark?, skipMarks, hskip]

/-- An instruction that means something adds its statement, in front of it what it takes to reach
it. -/
theorem State.Framed.step_of_operation {s : State} {f : Frame} (h : s.Framed f) {c : Context}
    (hskip : c.profile.adultSkip.enabled = false) {i : Instruction} {o : Operation}
    (ho : i.operation? c.profile = some o) (rest : List Instruction) :
    ∃ s', step c s i rest = .ok s' ∧ s'.Framed ((f.reach i.addr).perform o) ∧
      s'.document.rows = s.document.rows ++
        (f.reaching c.name i.addr ++ [⟨(f.reach i.addr).depth, o.statement c.name⟩]) := by
  obtain ⟨hreach, hrows⟩ := h.reach c i.addr
  unfold Screenplay.step
  rw [if_neg (by simpa using (Instruction.isProper_of_operation? ho).2),
    placeSkipMark_of_disabled hskip]
  dsimp only
  rw [← List.append_assoc, ← hrows]
  split
  · refine State.Framed.dispatch ?_ ho rest
    exact ⟨hreach.scopes, hreach.ends, hreach.pending, hreach.inlined⟩
  · exact hreach.dispatch ho rest

/-- A marker adds only what it takes to reach it. -/
theorem State.Framed.step_of_marker {s : State} {f : Frame} (h : s.Framed f) {c : Context}
    (hskip : c.profile.adultSkip.enabled = false) {i : Instruction}
    (hm : i.mnemonic = .notTerminated ∨ i.mnemonic = .endOfStream) (rest : List Instruction) :
    ∃ s', step c s i rest = .ok s' ∧ s'.Framed (f.reach i.addr) ∧
      s'.document.rows = s.document.rows ++ f.reaching c.name i.addr := by
  obtain ⟨hreach, hrows⟩ := h.reach c i.addr
  rw [← hrows]
  rcases hm with hm | hm
  · have hsay : waitsForMenu c i rest = false := by simp [waitsForMenu, hm, Mnemonic.isSay]
    have hread : Reading.ofInstruction i = .unhandled := by simp [Reading.ofInstruction, hm]
    refine ⟨((s.closeBranches i.addr).placeLabel c i.addr).remark
      (.unhandled (i.listing c.profile.charset c.profile.readers)), ?_, ?_,
        Document.rows_comment _ _⟩
    · simp [Screenplay.step, hm, placeSkipMark_of_disabled hskip, hsay, Screenplay.dispatch, hread]
    · exact ⟨hreach.scopes, hreach.ends, hreach.pending, hreach.inlined⟩
  · exact ⟨_, by simp [Screenplay.step, hm], hreach, rfl⟩

/-! ## The whole script -/

/-- Closing all blocks that hold a statement adds nothing. -/
theorem rows_closeAll_of_filled (n : Nat) (d : Document) (h : d.scopes = List.replicate n true) :
    ((List.replicate n true).foldl (fun d _ => d.closeScope) d).rows = d.rows := by
  induction n generalizing d with
  | zero => rfl
  | succ n ih =>
    rw [List.replicate_succ] at h
    rw [List.replicate_succ, List.foldl_cons, ih _ (Document.scopes_closeScope h),
      Document.rows_closeScope h]
    exact List.append_nil _

/-- At the end each empty block is filled. -/
theorem State.Framed.rows_closeAll {s : State} {f : Frame} (h : s.Framed f) :
    s.document.closeAll.rows = s.document.rows ++ f.filling := by
  rw [Document.closeAll, h.scopes, List.foldl_cons,
    rows_closeAll_of_filled _ _ (Document.scopes_closeScope h.scopes),
    Document.rows_closeScope h.scopes, Frame.filling, h.depth_eq]

/-- Going through a script of branches, jumps and pauses writes down the rows of its frame. -/
theorem State.Framed.runFrom {c : Context} (hskip : c.profile.adultSkip.enabled = false)
    (l : List Instruction)
    (hl : ∀ i ∈ l, (∃ o, i.operation? c.profile = some o) ∨
      i.mnemonic = .notTerminated ∨ i.mnemonic = .endOfStream) {s : State} {f : Frame}
    (h : s.Framed f) (index : Nat) :
    ∃ s', runFrom c s index l = .ok s' ∧
      s'.document.closeAll.rows = s.document.rows ++ f.rows c.profile c.name l := by
  induction l generalizing s f index with
  | nil => exact ⟨s, rfl, h.rows_closeAll⟩
  | cons i rest ih =>
    have hrest := fun j hj => hl j (List.mem_cons_of_mem _ hj)
    rcases hl i (List.mem_cons_self ..) with ⟨o, ho⟩ | hm
    · obtain ⟨s₁, hstep, hframed, hrows⟩ := h.step_of_operation hskip ho rest
      obtain ⟨s', hrun, hrows'⟩ := ih hrest hframed (index + 1)
      refine ⟨s', by rw [Screenplay.runFrom, hstep]; exact hrun, ?_⟩
      rw [hrows', hrows, Frame.rows, ho]
      simp only [List.append_assoc, List.singleton_append]
    · obtain ⟨s₁, hstep, hframed, hrows⟩ := h.step_of_marker hskip hm rest
      obtain ⟨s', hrun, hrows'⟩ := ih hrest hframed (index + 1)
      have ho : i.operation? c.profile = none := by
        rcases hm with hm | hm <;> rw [Instruction.operation?, hm] <;> rfl
      refine ⟨s', by rw [Screenplay.runFrom, hstep]; exact hrun, ?_⟩
      rw [hrows', hrows, Frame.rows, ho, List.append_assoc]

/-- The frame before the first instruction: the block of the script's own label. -/
def Frame.start (pending : List Nat) : Frame :=
  ⟨false, [], pending⟩

/-- The screenplay of a script of branches, jumps and pauses is complete, and consists of the
script's own label and the rows of its frame. -/
theorem ofInstructions_rows {p : Profile} (hskip : p.adultSkip.enabled = false) (name : String)
    (l : List Instruction) (graph : BlockGraph)
    (hl : ∀ i ∈ l, (∃ o, i.operation? p = some o) ∨
      i.mnemonic = .notTerminated ∨ i.mnemonic = .endOfStream) :
    (ofInstructions name l graph p).fault = none ∧
      (ofInstructions name l graph p).document.rows
        = ⟨0, .label (.script (Unicode.toUpper name))⟩ ::
            (Frame.start ((graph.blocks.filter (·.kind == .jump)).filterMap (·.trueTarget))).rows p
              (Unicode.toUpper name) l := by
  have hstart : (start ⟨p, Unicode.toUpper name, l, graph⟩).Framed
      (Frame.start ((graph.blocks.filter (·.kind == .jump)).filterMap (·.trueTarget))) :=
    ⟨rfl, rfl, rfl, rfl⟩
  obtain ⟨s', hrun, hrows⟩ := State.Framed.runFrom (c := ⟨p, Unicode.toUpper name, l, graph⟩) hskip
    l hl hstart 0
  unfold ofInstructions
  dsimp only
  rw [hrun]
  exact ⟨rfl, hrows⟩

/-! ## The rows make blocks -/

namespace Frame

/-- Whether a row can be the last one before a frame: the header of the innermost block while that
is empty, and no header that is further out if not. -/
def Follows (f : Frame) (r : Row) : Prop :=
  if f.filled then r.statement.isHeader = false ∧ f.depth ≤ r.depth
  else r.statement.isHeader = true ∧ r.depth + 1 = f.depth

variable {f : Frame} {r : Row} {rest : List Row}

/-- A statement may be added to the innermost block. -/
theorem Follows.precedes (h : f.Follows r) (st : Statement) : r.Precedes ⟨f.depth, st⟩ := by
  unfold Follows at h
  unfold Row.Precedes
  cases hfilled : f.filled with
  | true =>
    rw [if_pos hfilled] at h
    rw [if_neg (by simp [h.1])]
    exact h.2
  | false =>
    rw [if_neg (by simp [hfilled])] at h
    rw [if_pos h.1]
    exact h.2.symm

theorem Follows.leads_filling (h : f.Follows r)
    (hrest : ∀ r' : Row, r'.statement.isHeader = false → f.depth ≤ r'.depth → r'.Leads rest) :
    r.Leads (f.filling ++ rest) := by
  have hprecedes := h.precedes .pass
  unfold Follows at h
  unfold filling
  cases hfilled : f.filled with
  | true =>
    rw [if_pos hfilled] at h
    exact hrest r h.1 h.2
  | false => exact ⟨hprecedes, hrest _ rfl (Nat.le_refl _)⟩

theorem Follows.leads_closing (h : f.Follows r) (addr : Nat)
    (hrest : ∀ r', (f.closeAt addr).Follows r' → r'.Leads rest) :
    r.Leads (f.closing addr ++ rest) := by
  unfold closing
  unfold closeAt at hrest
  by_cases hhead : f.ends.head? = some addr
  · rw [if_pos hhead] at hrest ⊢
    refine h.leads_filling fun r' hheader hdepth => hrest r' ⟨hheader, ?_⟩
    have hle : (f.ends.dropWhile (· == addr)).length ≤ f.ends.length :=
      (List.dropWhile_sublist _).length_le
    show (f.ends.dropWhile (· == addr)).length + 1 ≤ r'.depth
    unfold depth at hdepth
    omega
  · rw [if_neg hhead] at hrest ⊢
    exact hrest r h

theorem Follows.leads_labelling (h : f.Follows r) (name : String) (addr : Nat)
    (hrest : ∀ r', (f.labelAt addr).Follows r' → r'.Leads rest) :
    r.Leads (f.labelling name addr ++ rest) := by
  unfold labelling
  unfold labelAt at hrest
  by_cases hmem : f.pending.contains addr = true
  · rw [if_pos hmem] at hrest ⊢
    rw [List.append_assoc]
    refine h.leads_filling fun r' hheader hdepth => ⟨?_, hrest _ ⟨rfl, rfl⟩⟩
    unfold Row.Precedes
    rw [if_neg (by simp [hheader])]
    exact Nat.le_of_succ_le hdepth
  · rw [if_neg hmem] at hrest ⊢
    exact hrest r h

theorem follows_perform (f : Frame) (o : Operation) (name : String) :
    (f.perform o).Follows ⟨f.depth, o.statement name⟩ := by
  cases o with
  | branch reference cmp value close => exact ⟨rfl, rfl⟩
  | jump goal | leave script | ret | pause ms => exact ⟨rfl, Nat.le_refl _⟩

/-- By induction on the instructions, the rows that the frame foretells follow one another. -/
theorem Follows.leads_rows (h : f.Follows r) (p : Profile) (name : String) (l : List Instruction) :
    r.Leads (f.rows p name l) := by
  induction l generalizing f r with
  | nil =>
    rw [rows, ← List.append_nil f.filling]
    exact h.leads_filling fun r' hheader _ => hheader
  | cons i rest ih =>
    rw [rows, reaching, List.append_assoc]
    refine h.leads_closing i.addr fun r₁ h₁ => h₁.leads_labelling name i.addr fun r₂ h₂ => ?_
    cases i.operation? p with
    | none => exact ih h₂
    | some o => exact ⟨h₂.precedes _, ih (follows_perform _ o name)⟩

/-- The rows of a script under its own label make blocks. -/
theorem wellIndented_start (pending : List Nat) (p : Profile) (name : String)
    (l : List Instruction) :
    Renpy.WellIndented (⟨0, .label (.script name)⟩ :: (start pending).rows p name l) := by
  have hfollows : (start pending).Follows ⟨0, .label (.script name)⟩ := ⟨rfl, rfl⟩
  exact ⟨rfl, hfollows.leads_rows p name l⟩

end Frame

end Rio.Screenplay
