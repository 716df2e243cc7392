import Rio.Proofs.Renpy.Indentation

/-!
# The blocks of an edited document

A document keeps one mark for each open block: whether it has received a statement. That is all it
knows when it closes a block, so the marks have to be those of the right blocks whatever is done
in between.

To say which blocks those are a `History` goes along with the edits. It keeps the line that each
open block starts at, and for each block that was closed the lines that it held and those that
were added to close it. It looks at no marks. The argument is one invariant:

> `History.Tracks`: the mark of an open block says whether there is a statement at its own depth
> among the lines since its start, and a block that was closed got a `pass` just if there was none.

`Tracks.apply` is the step and `tracks_ofEdits` the run. `edits_fill_blocks` puts together what
follows for every sequence of edits.
-/

namespace Rio.Renpy

/-- Whether a line is a statement in a block of some depth. -/
def Entry.isStatementAt (depth : Nat) (e : Entry) : Bool :=
  e.row?.any (·.depth == depth)

theorem Entry.isStatementAt_of_ne {e : Entry} {depth : Nat} (h : e.depth ≠ depth) :
    e.isStatementAt depth = false := by
  obtain ⟨n, content⟩ := e
  cases content with
  | statement st => exact beq_eq_false_iff_ne.mpr h
  | comment r => rfl

/-- Whether an edit opens a block. -/
def Edit.opens : Edit → Bool
  | .openScope => true
  | _ => false

/-- A block that has been closed. -/
structure ClosedBlock where
  depth : Nat
  /-- The lines between its beginning and its end. -/
  held : List Entry
  /-- The lines that were added to close it. -/
  added : List Entry

/-- A closed block got a `pass` just if it held no statement of its own. -/
def ClosedBlock.IsFilled (b : ClosedBlock) : Prop :=
  b.added = if b.held.any (·.isStatementAt b.depth) then [] else [⟨b.depth, .statement .pass⟩]

/-- In the end it has a statement of its own. -/
theorem ClosedBlock.IsFilled.exists_statement {b : ClosedBlock} (h : b.IsFilled) :
    ∃ e ∈ b.held ++ b.added, e.isStatementAt b.depth = true := by
  unfold IsFilled at h
  cases hheld : b.held.any (·.isStatementAt b.depth) with
  | true =>
    obtain ⟨e, he, hstatement⟩ := List.any_eq_true.mp hheld
    exact ⟨e, List.mem_append_left _ he, hstatement⟩
  | false =>
    rw [hheld] at h
    refine ⟨⟨b.depth, .statement .pass⟩, List.mem_append_right _ ?_, beq_self_eq_true b.depth⟩
    rw [h]
    exact List.mem_cons_self

/-- Without an open block there is nothing to close. -/
theorem Document.closeScope_of_nil {d : Document} (h : d.scopes = []) : d.closeScope = d := by
  unfold closeScope
  rw [h]

/-- The end of a block, by its mark. -/
theorem Document.closeScope_of_cons {d : Document} {mark : Bool} {outer : List Bool}
    (h : d.scopes = mark :: outer) :
    d.closeScope.scopes = outer ∧
      d.closeScope.entries.toList = d.entries.toList ++ if mark then []
        else [⟨d.depth, .statement .pass⟩] := by
  unfold closeScope
  rw [h]
  cases mark with
  | true => exact ⟨rfl, (List.append_nil _).symm⟩
  | false => exact ⟨rfl, d.entries_statement .pass⟩

/-- What has become of the blocks of a document. -/
structure History where
  document : Document := {}
  /-- The number of lines before each open block, the innermost first. -/
  starts : List Nat := []
  closed : List ClosedBlock := []

namespace History

/-- Closes the innermost block. -/
def close (h : History) : History :=
  match h.starts with
  | [] => { h with document := h.document.closeScope }
  | start :: outer =>
    { document := h.document.closeScope
      starts := outer
      closed := h.closed ++ [{
        depth := outer.length + 1
        held := h.document.entries.toList.drop start
        added := h.document.closeScope.entries.toList.drop h.document.entries.toList.length }] }

/-- The history after an edit. -/
def apply (h : History) : Edit → History
  | .statement s => { h with document := h.document.statement s }
  | .comment r => { h with document := h.document.comment r }
  | .openScope =>
    { h with
      document := h.document.openScope
      starts := h.document.entries.toList.length :: h.starts }
  | .closeScope => h.close
  | .closeAll => h.starts.foldl (fun h _ => h.close) h

/-- The history of a document that was empty. -/
def ofEdits (edits : List Edit) : History :=
  edits.foldl apply {}

/-! ## Marks -/

/-- For each of some open blocks, whether there is a statement at its own depth since its start. -/
def marks (lines : List Entry) : List Nat → List Bool
  | [] => []
  | start :: outer =>
    (lines.drop start).any (·.isStatementAt (outer.length + 1)) :: marks lines outer

section Marks

variable {lines : List Entry} {starts : List Nat} {e : Entry}

/-- There is one mark for each open block. -/
theorem length_marks (lines : List Entry) (starts : List Nat) :
    (marks lines starts).length = starts.length := by
  induction starts with
  | nil => rfl
  | cons start outer ih => rw [marks, List.length_cons, ih, List.length_cons]

/-- One more line counts for every block that is open. -/
theorem any_drop_concat {start : Nat} (hle : start ≤ lines.length) (p : Entry → Bool) :
    ((lines ++ [e]).drop start).any p = ((lines.drop start).any p || p e) := by
  rw [List.drop_append_of_le_length hle, List.any_append, List.any_cons, List.any_nil,
    Bool.or_false]

/-- A line further in says nothing about the blocks around it. -/
theorem marks_concat_of_lt (hle : ∀ start ∈ starts, start ≤ lines.length)
    (hdeep : starts.length < e.depth) :
    marks (lines ++ [e]) starts = marks lines starts := by
  induction starts with
  | nil => rfl
  | cons start outer ih =>
    rw [List.length_cons] at hdeep
    have hother : e.isStatementAt (outer.length + 1) = false := e.isStatementAt_of_ne (by omega)
    rw [marks, marks, any_drop_concat (hle start List.mem_cons_self), hother, Bool.or_false,
      ih (fun start hstart => hle start (List.mem_cons_of_mem _ hstart)) (by omega)]

/-- A line in the innermost block. -/
theorem marks_concat {start : Nat} {outer : List Nat} (hle : ∀ s ∈ start :: outer, s ≤ lines.length)
    (hdepth : e.depth = outer.length + 1) :
    marks (lines ++ [e]) (start :: outer)
      = ((lines.drop start).any (·.isStatementAt (outer.length + 1)) ||
        e.isStatementAt (outer.length + 1))
          :: marks lines outer := by
  have houter : ∀ s ∈ outer, s ≤ lines.length := fun s hs => hle s (List.mem_cons_of_mem _ hs)
  rw [marks, any_drop_concat (hle start List.mem_cons_self), marks_concat_of_lt houter (by omega)]

end Marks

/-! ## The invariant -/

/-- The marks of the document are those of its blocks, and the closed blocks are parts of it and
filled. -/
structure Tracks (h : History) : Prop where
  scopes_eq : h.document.scopes = marks h.document.entries.toList h.starts
  starts_le : ∀ start ∈ h.starts, start ≤ h.document.entries.toList.length
  isPart : ∀ b ∈ h.closed, b.held ++ b.added <:+: h.document.entries.toList
  filled : ∀ b ∈ h.closed, b.IsFilled

variable {h : History}

/-- The depth is the number of open blocks. -/
theorem Tracks.depth_eq (hh : h.Tracks) : h.document.depth = h.starts.length := by
  rw [Document.depth, hh.scopes_eq, length_marks]

namespace Tracks

theorem empty : ({} : History).Tracks :=
  ⟨rfl, List.forall_mem_nil _, List.forall_mem_nil _, List.forall_mem_nil _⟩

/-- One more line, of which the mark of the innermost block takes note if it is a statement. -/
theorem push (hh : h.Tracks) {d : Document} {content : Content}
    (hentries : d.entries.toList = h.document.entries.toList ++ [⟨h.document.depth, content⟩])
    (hscopes : ∀ mark outer, h.document.scopes = mark :: outer →
      d.scopes
        = (mark || Entry.isStatementAt (outer.length + 1) ⟨outer.length + 1, content⟩) :: outer)
    (hnil : h.document.scopes = [] → d.scopes = []) :
    ({ h with document := d } : History).Tracks := by
  have hdepth := hh.depth_eq
  refine ⟨?_, ?_, fun b hb => ?_, hh.filled⟩
  · show d.scopes = marks d.entries.toList h.starts
    have hmarks := hh.scopes_eq
    have hle := hh.starts_le
    rw [hentries]
    cases hstarts : h.starts with
    | nil =>
      rw [hstarts] at hmarks
      exact hnil hmarks
    | cons start outer =>
      rw [hstarts] at hmarks hle hdepth
      rw [List.length_cons] at hdepth
      rw [marks_concat hle hdepth, hscopes _ _ hmarks, length_marks, hdepth]
  · intro start hstart
    show start ≤ d.entries.toList.length
    rw [hentries, List.length_append]
    exact Nat.le_add_right_of_le (hh.starts_le start hstart)
  · show _ <:+: d.entries.toList
    rw [hentries]
    exact (hh.isPart b hb).trans (List.prefix_append ..).isInfix

/-- A statement fills the innermost block. -/
theorem statement (hh : h.Tracks) (st : Statement) :
    ({ h with document := h.document.statement st } : History).Tracks := by
  refine hh.push (h.document.entries_statement st) (fun mark outer hscopes => ?_)
    (fun hscopes => ?_)
  · rw [Document.scopes_statement hscopes st,
      show Entry.isStatementAt (outer.length + 1) ⟨outer.length + 1, .statement st⟩ = true
        from beq_self_eq_true _, Bool.or_true]
  · unfold Document.statement
    rw [hscopes]

/-- A comment fills none. -/
theorem comment (hh : h.Tracks) (r : Remark) :
    ({ h with document := h.document.comment r } : History).Tracks := by
  refine hh.push (h.document.entries_comment r) (fun mark outer hscopes => ?_) id
  rw [show Entry.isStatementAt (outer.length + 1) ⟨outer.length + 1, .comment r⟩ = false from rfl,
    Bool.or_false]
  exact hscopes

/-- A new block has no lines, so its mark is not set. -/
theorem openScope (hh : h.Tracks) : (h.apply .openScope).Tracks := by
  refine ⟨?_, ?_, hh.isPart, hh.filled⟩
  · show false :: h.document.scopes
      = marks h.document.entries.toList (h.document.entries.toList.length :: h.starts)
    rw [marks, List.drop_length, List.any_nil, hh.scopes_eq]
  · exact List.forall_mem_cons.mpr ⟨Nat.le_refl _, hh.starts_le⟩

/-- The block that is closed is filled by its mark, and the marks around it stay: a `pass` is
deeper than the blocks around its own. -/
theorem close (hh : h.Tracks) : h.close.Tracks := by
  have hmarks := hh.scopes_eq
  have hle := hh.starts_le
  have hdepth := hh.depth_eq
  unfold History.close
  cases hstarts : h.starts with
  | nil =>
    rw [hstarts] at hmarks
    dsimp only
    rw [Document.closeScope_of_nil hmarks]
    exact hstarts ▸ hh
  | cons start outer =>
    rw [hstarts] at hmarks hle hdepth
    rw [List.length_cons] at hdepth
    have houter := (List.forall_mem_cons.mp hle).2
    obtain ⟨hscopes, hentries⟩ := Document.closeScope_of_cons hmarks
    refine ⟨?_, ?_, ?_, ?_⟩
    · show h.document.closeScope.scopes = marks h.document.closeScope.entries.toList outer
      rw [hscopes, hentries]
      -- a `pass` stands inside the block that is closed, so no mark further out takes note of it
      split
      · rw [List.append_nil]
      · rw [marks_concat_of_lt houter (by rw [hdepth]; exact Nat.lt_succ_self _)]
    · intro start hstart
      show start ≤ h.document.closeScope.entries.toList.length
      rw [hentries, List.length_append]
      exact Nat.le_add_right_of_le (houter start hstart)
    · intro b hb
      rcases List.mem_append.mp hb with hb | hb
      · exact (hh.isPart b hb).trans h.document.isPrefix_closeScope.isInfix
      · -- the lines since the start of the block, up to those that were added
        rw [List.mem_singleton.mp hb]
        show h.document.entries.toList.drop start
            ++ h.document.closeScope.entries.toList.drop _ <:+: _
        rw [hentries, List.drop_left, ← List.drop_append_of_le_length
          (hle start List.mem_cons_self)]
        exact (List.drop_suffix ..).isInfix
    · intro b hb
      rcases List.mem_append.mp hb with hb | hb
      · exact hh.filled b hb
      · rw [List.mem_singleton.mp hb]
        show h.document.closeScope.entries.toList.drop _ = _
        rw [hentries, List.drop_left, hdepth]

/-- By cases on the edit. -/
theorem apply (hh : h.Tracks) (e : Edit) : (h.apply e).Tracks := by
  cases e with
  | statement st => exact hh.statement st
  | comment r => exact hh.comment r
  | openScope => exact hh.openScope
  | closeScope => exact hh.close
  | closeAll => exact List.foldlRecOn h.starts _ hh fun _ hg _ _ => hg.close

end Tracks

/-- By induction on the edits. -/
theorem tracks_ofEdits (edits : List Edit) : (ofEdits edits).Tracks :=
  List.foldlRecOn edits _ .empty fun _ hh e _ => hh.apply e

/-! ## The document of a history -/

/-- A history closes a block as a document does. -/
theorem document_close (h : History) : h.close.document = h.document.closeScope := by
  unfold close
  cases h.starts <;> rfl

/-- Blocks are closed as often in both. -/
theorem document_foldl_close {α β : Type} {xs : List α} {ys : List β}
    (hlength : xs.length = ys.length) (h : History) :
    (xs.foldl (fun h _ => h.close) h).document = ys.foldl (fun d _ => d.closeScope) h.document := by
  induction xs generalizing h ys with
  | nil =>
    rw [List.eq_nil_of_length_eq_zero hlength.symm]
    rfl
  | cons x xs ih =>
    cases ys with
    | nil => cases hlength
    | cons y ys =>
      rw [List.foldl_cons, List.foldl_cons, ih (Nat.succ.inj hlength), document_close]

/-- The history is that of the edited document. -/
theorem document_apply (hh : h.Tracks) (e : Edit) : (h.apply e).document = h.document.apply e := by
  cases e with
  | closeScope => exact document_close h
  | closeAll => exact document_foldl_close hh.depth_eq.symm h
  | _ => rfl

/-- A history carries the document that its edits make. -/
theorem document_foldl (hh : h.Tracks) (edits : List Edit) :
    (edits.foldl History.apply h).document = edits.foldl Document.apply h.document := by
  induction edits generalizing h with
  | nil => rfl
  | cons e edits ih => rw [List.foldl_cons, List.foldl_cons, ih (hh.apply e), document_apply hh]

/-! ## Counting blocks -/

/-- The blocks that a history knows of, open and closed. -/
def blocks (h : History) : Nat :=
  h.closed.length + h.starts.length

/-- A block that closes is still counted. -/
theorem blocks_close (h : History) : h.close.blocks = h.blocks := by
  unfold blocks close
  cases hstarts : h.starts with
  | nil => rfl
  | cons start outer =>
    show (h.closed ++ [_]).length + outer.length = h.closed.length + (start :: outer).length
    rw [List.length_append, List.length_singleton, List.length_cons]
    omega

/-- Only the opening of a block adds one. -/
theorem blocks_apply (h : History) (e : Edit) :
    (h.apply e).blocks = h.blocks + if e.opens then 1 else 0 := by
  cases e with
  | closeScope => exact h.blocks_close
  | closeAll =>
    exact List.foldlRecOn (motive := fun g : History => g.blocks = h.blocks) h.starts _ rfl
      fun g hg _ _ =>
      (blocks_close g).trans hg
  | _ => rfl

theorem blocks_foldl (edits : List Edit) (h : History) :
    (edits.foldl apply h).blocks = h.blocks + edits.countP Edit.opens := by
  induction edits generalizing h with
  | nil => rfl
  | cons e edits ih =>
    rw [List.foldl_cons, ih, blocks_apply, List.countP_cons]
    omega

end History

/-! ## The whole document -/

namespace Document

/-- At the end no block is open. -/
theorem depth_closeAll (d : Document) : d.closeAll.depth = 0 := by
  have hclose : ∀ (scopes : List Bool) (d : Document),
      (scopes.foldl (fun d _ => d.closeScope) d).depth = d.depth - scopes.length := by
    intro scopes
    induction scopes with
    | nil => exact fun d => rfl
    | cons _ scopes ih =>
      intro d
      rw [List.foldl_cons, ih, depth_closeScope, List.length_cons]
      omega
  exact (hclose d.scopes d).trans (Nat.sub_self _)

/-- The characters of a document: each line behind as many units of indentation as it is deep. -/
theorem toList_render (d : Document) (indent : String) :
    (d.render indent).toList = d.entries.toList.flatMap fun e =>
      (List.replicate e.depth indent.toList).flatten ++ e.content.text.toList ++ ['\n'] := by
  unfold render
  rw [String.toList_join, List.flatMap_map]
  congr 1
  funext e
  unfold Entry.line
  rw [String.toList_append, String.toList_append, String.toList_join, List.flatMap_replicate]
  rfl

end Document

/-- For every sequence of edits of an empty document: one more statement or comment adds its entry
at the depth of the open blocks; every block that was opened is open or closed; the lines of a
closed block are part of the document, they have a statement at its own depth, and a `pass` was
added just if there was none before; without an open block there is nothing to close; all open
blocks can be closed; and the text has a line for each entry, indented by its depth. -/
theorem edits_fill_blocks (edits : List Edit) (indent : String) :
    let h := History.ofEdits edits
    let d := edits.foldl Document.apply {}
    h.document = d ∧ h.starts.length = d.depth ∧
    (∀ st, (d.apply (.statement st)).entries.toList
      = d.entries.toList ++ [⟨d.depth, .statement st⟩]) ∧
    (∀ r, (d.apply (.comment r)).entries.toList = d.entries.toList ++ [⟨d.depth, .comment r⟩]) ∧
    h.closed.length + d.depth = edits.countP Edit.opens ∧
    (∀ b ∈ h.closed, b.held ++ b.added <:+: d.entries.toList ∧
      (∃ e ∈ b.held ++ b.added, e.isStatementAt b.depth = true) ∧
      b.added = if b.held.any (·.isStatementAt b.depth) then []
        else [⟨b.depth, .statement .pass⟩]) ∧
    (d.depth = 0 → d.closeScope.entries = d.entries) ∧
    d.closeAll.depth = 0 ∧
    (d.render indent).toList = d.entries.toList.flatMap fun e =>
      (List.replicate e.depth indent.toList).flatten ++ e.content.text.toList ++ ['\n'] := by
  intro h d
  have htracks : h.Tracks := History.tracks_ofEdits edits
  have hdocument : h.document = d := History.document_foldl .empty edits
  have hdepth : h.starts.length = d.depth := by rw [← htracks.depth_eq, hdocument]
  have hclosed : ∀ b ∈ h.closed, b.held ++ b.added <:+: d.entries.toList ∧
      (∃ e ∈ b.held ++ b.added, e.isStatementAt b.depth = true) ∧ b.IsFilled := fun b hb =>
    ⟨hdocument ▸ htracks.isPart b hb, (htracks.filled b hb).exists_statement, htracks.filled b hb⟩
  refine ⟨hdocument, hdepth, d.entries_statement, d.entries_comment, ?_, hclosed, ?_,
    d.depth_closeAll, d.toList_render indent⟩
  -- a block is open or closed, and every opening edit makes one
  · rw [← hdepth]
    exact (History.blocks_foldl edits {}).trans (Nat.zero_add _)
  · intro hzero
    rw [Document.closeScope_of_nil (List.eq_nil_of_length_eq_zero hzero)]

/-- The statement in the inner block is none of the outer one's. -/
example :
    (History.ofEdits [.openScope, .comment .generated, .openScope, .statement .ret,
      .closeAll]).closed.map
    (fun b => (b.depth, b.held.length, b.added.length)) = [(2, 1, 0), (1, 2, 1)] := by
  decide

end Rio.Renpy
