import Rio.Proofs.Renpy.Playback
import Rio.Proofs.Stage.Places

/-!
# Indentation of a growing document

A document is built by adding statements and by opening and closing blocks, and its depths are
those of the blocks that are open. For the lines to make blocks a header has to be followed by
something deeper, and nothing else may be. `Document.Indented` is what makes that so while the
document grows:

> the rows so far lead to a row at the present depth; of the open blocks only the innermost one can
> be empty, and it is just as long as its header is the last row.

Most of what is done to a document stays in the block that is open: it may open further blocks but
closes them again. `Document.Within` says so of a document before and after, and is built up step
by step: `Within.statement`, `Within.comment`, and `Within.block` for a header, what is done under
it, and the end of its block. `Document.AddsFrom` is about the depth of what is added alone, and
`Document.WritesWithin` counts comments as well.
-/

namespace Rio.Renpy

/-! ## The last row and the next one -/

/-- Whether the last of some rows is a header. -/
def endsInHeader (rows : List Row) : Bool :=
  rows.getLast?.any (·.statement.isHeader)

theorem endsInHeader_concat (rows : List Row) (r : Row) :
    endsInHeader (rows ++ [r]) = r.statement.isHeader := by
  simp [endsInHeader]

/-- A row that comes next can be replaced by others that may stand there. -/
theorem Row.Leads.replace_last {r x : Row} {rows rest : List Row} (h : r.Leads (rows ++ [x]))
    (hrest : ∀ last, (r :: rows).getLast? = some last → last.Precedes x → last.Leads rest) :
    r.Leads (rows ++ rest) := by
  induction rows generalizing r with
  | nil => exact hrest r rfl h.1
  | cons r' rows ih =>
    refine ⟨h.1, ih h.2 fun last hlast => hrest last ?_⟩
    rw [List.getLast?_cons_cons]
    exact hlast

/-- The last row of a script may be exchanged for rows that follow the one before it as it did. -/
theorem WellIndented.replace_last {x : Row} {rows rest : List Row} (h : WellIndented (rows ++ [x]))
    (hnil : rows = [] → x.depth = 0 → WellIndented rest)
    (hrest : ∀ last, rows.getLast? = some last → last.Precedes x → last.Leads rest) :
    WellIndented (rows ++ rest) := by
  cases rows with
  | nil => exact hnil rfl h.1
  | cons r rows => exact ⟨h.1, h.2.replace_last hrest⟩

/-- What follows a row in a well-indented script follows it on its own. -/
theorem Row.Leads.drop {r x : Row} {front rest : List Row} (h : r.Leads (front ++ x :: rest)) :
    x.Leads rest := by
  induction front generalizing r with
  | nil => exact h.2
  | cons r' front ih => exact ih h.2

/-- A header is followed by a row that is one deeper. -/
theorem WellIndented.deeper {front rest : List Row} {header : Row}
    (h : WellIndented (front ++ header :: rest)) (hheader : header.statement.isHeader = true) :
    ∃ r ∈ rest.head?, r.depth = header.depth + 1 := by
  have hleads : header.Leads rest := by
    cases front with
    | nil => exact h.2
    | cons r front => exact h.2.drop
  cases rest with
  | nil =>
    have hflat : header.statement.isHeader = false := hleads
    rw [hheader] at hflat
    cases hflat
  | cons r rest =>
    have hprecedes := hleads.1
    unfold Row.Precedes at hprecedes
    rw [if_pos hheader] at hprecedes
    exact ⟨r, rfl, hprecedes⟩

namespace Document

variable {d e : Document} {st : Statement}

/-! ## Depths -/

/-- A statement leaves the depth, though it fills its block. -/
@[simp] theorem depth_statement (d : Document) (st : Statement) :
    (d.statement st).depth = d.depth := by
  unfold depth statement
  cases d.scopes <;> rfl

@[simp] theorem depth_comment (d : Document) (r : Remark) : (d.comment r).depth = d.depth := rfl

@[simp] theorem depth_header (d : Document) (st : Statement) :
    (d.header st).depth = d.depth + 1 := by
  show (d.statement st).depth + 1 = d.depth + 1
  rw [depth_statement]

/-- Closing goes one out, if a block is open. -/
theorem depth_closeScope (d : Document) : d.closeScope.depth = d.depth - 1 := by
  unfold closeScope
  cases hscopes : d.scopes with
  | nil =>
    show d.depth = d.depth - 1
    rw [depth, hscopes]
    rfl
  | cons filled outer =>
    have hdepth : d.depth = outer.length + 1 := by rw [depth, hscopes, List.length_cons]
    cases filled <;> exact (Nat.sub_eq_of_eq_add hdepth).symm

/-! ## Documents that are indented -/

/-- A document whose rows make blocks so far. -/
structure Indented (d : Document) : Prop where
  /-- A statement may come next. -/
  next : WellIndented (d.rows ++ [⟨d.depth, .pass⟩])
  /-- The innermost block is empty right after its header, and only there. -/
  empty_iff : d.scopes.head? = some false ↔ endsInHeader d.rows = true
  /-- The blocks around it hold its header. -/
  filled : ∀ b ∈ d.scopes.tail, b = true

namespace Indented

theorem empty : ({} : Document).Indented :=
  ⟨⟨rfl, rfl⟩, ⟨fun h => (by cases h), fun h => (by cases h)⟩, fun b hb => (by cases hb)⟩

/-- Comments are no rows. -/
theorem comment (h : d.Indented) (r : Remark) : (d.comment r).Indented := by
  have hrows := d.rows_comment r
  exact ⟨hrows ▸ h.next, hrows ▸ h.empty_iff, h.filled⟩

/-- One more statement, and then a row that may follow it. -/
theorem next_statement (h : d.Indented) {depth : Nat}
    (hprecedes : Row.Precedes ⟨d.depth, st⟩ ⟨depth, .pass⟩) :
    WellIndented ((d.statement st).rows ++ [⟨depth, .pass⟩]) := by
  rw [rows_statement, List.append_assoc]
  -- what may precede `pass` may precede any statement at the same depth
  refine h.next.replace_last (fun _ hdepth => ?_) (fun last _ hlast => ?_)
  · exact ⟨hdepth, hprecedes, rfl⟩
  · exact ⟨hlast, hprecedes, rfl⟩

/-- A statement goes where the next row may stand, and leaves the place for one more there. -/
theorem statement (h : d.Indented) (hst : st.isHeader = false) : (d.statement st).Indented := by
  refine ⟨?_, ?_, ?_⟩
  · rw [depth_statement]
    refine h.next_statement ?_
    show if st.isHeader = true then d.depth = d.depth + 1 else d.depth ≤ d.depth
    rw [hst]
    exact Nat.le_refl d.depth
  · rw [rows_statement, endsInHeader_concat, hst]
    unfold Document.statement
    cases d.scopes <;> simp
  · have hfilled := h.filled
    unfold Document.statement
    cases hscopes : d.scopes with
    | nil => exact fun b hb => (by cases hb)
    | cons b outer =>
      rw [hscopes] at hfilled
      exact hfilled

/-- After a header the next row is one deeper. -/
theorem header (h : d.Indented) (hst : st.isHeader = true) : (d.header st).Indented := by
  refine ⟨?_, ?_, ?_⟩
  · rw [depth_header]
    refine h.next_statement ?_
    unfold Row.Precedes
    rw [if_pos hst]
  · rw [rows_header, endsInHeader_concat, hst]
    exact ⟨fun _ => rfl, fun _ => rfl⟩
  · -- the header fills the block that it stands in
    have hfilled := h.filled
    show ∀ b ∈ (d.statement st).scopes, b = true
    unfold Document.statement
    cases hscopes : d.scopes with
    | nil => exact fun b hb => (by cases hb)
    | cons b outer =>
      rw [hscopes] at hfilled
      exact List.forall_mem_cons.mpr ⟨rfl, hfilled⟩

/-- A block that holds a statement may be left. -/
theorem leave (h : d.Indented) {outer : List Bool} (hscopes : d.scopes = true :: outer) :
    ({ d with scopes := outer } : Document).Indented := by
  have hlast : endsInHeader d.rows = false := by
    rw [Bool.eq_false_iff]
    intro hheader
    have hempty := h.empty_iff.mpr hheader
    rw [hscopes] at hempty
    cases hempty
  have houter : ∀ b ∈ outer, b = true := by
    have hfilled := h.filled
    rw [hscopes] at hfilled
    exact hfilled
  have hdepth : d.depth = outer.length + 1 := by rw [depth, hscopes, List.length_cons]
  refine ⟨?_, ?_, fun b hb => houter b (List.mem_of_mem_tail hb)⟩
  · show WellIndented (d.rows ++ [⟨outer.length, .pass⟩])
    refine h.next.replace_last (fun _ hzero => ?_) (fun last hmem hprecedes => ?_)
    · change d.depth = 0 at hzero
      omega
    · have hflat : ¬last.statement.isHeader = true := by
        unfold endsInHeader at hlast
        rw [hmem] at hlast
        simpa using hlast
      refine ⟨?_, rfl⟩
      unfold Row.Precedes at hprecedes ⊢
      rw [if_neg hflat] at hprecedes ⊢
      change d.depth ≤ last.depth at hprecedes
      show outer.length ≤ last.depth
      omega
  · constructor
    · intro hhead
      cases houter false (List.mem_of_mem_head? hhead)
    · intro hheader
      rw [show endsInHeader ({ d with scopes := outer } : Document).rows = false from hlast]
        at hheader
      cases hheader

/-- An empty block gets its `pass`, so the header that opened it is followed as it must be. -/
theorem closeScope (h : d.Indented) : d.closeScope.Indented := by
  unfold Document.closeScope
  cases hscopes : d.scopes with
  | nil => exact h
  | cons filled outer =>
    cases filled with
    | true => exact h.leave hscopes
    | false => exact (h.statement rfl).leave (scopes_statement hscopes .pass)

/-- In the end all blocks are closed. -/
theorem closeAll (h : d.Indented) : d.closeAll.Indented ∧ d.closeAll.depth = 0 := by
  have hclose : ∀ (scopes : List Bool) (d : Document), d.Indented → d.depth = scopes.length →
      (scopes.foldl (fun d _ => d.closeScope) d).Indented ∧
        (scopes.foldl (fun d _ => d.closeScope) d).depth = 0 := by
    intro scopes
    induction scopes with
    | nil =>
      intro d h hdepth
      exact ⟨h, hdepth⟩
    | cons _ scopes ih =>
      intro d h hdepth
      refine ih d.closeScope h.closeScope ?_
      rw [depth_closeScope, hdepth, List.length_cons, Nat.add_sub_cancel]
  exact hclose d.scopes d h rfl

/-- Without open blocks the rows are complete. -/
theorem wellIndented (h : d.Indented) (hdepth : d.depth = 0) : WellIndented d.rows := by
  have hscopes : d.scopes = [] := List.eq_nil_of_length_eq_zero hdepth
  have hlast : endsInHeader d.rows = false := by
    rw [Bool.eq_false_iff]
    intro hheader
    have hempty := h.empty_iff.mpr hheader
    rw [hscopes] at hempty
    cases hempty
  rw [← List.append_nil d.rows]
  refine h.next.replace_last (fun _ _ => trivial) (fun last hmem _ => ?_)
  unfold endsInHeader at hlast
  rw [hmem] at hlast
  exact hlast

/-- A last statement completes the rows, whatever blocks are open. -/
theorem wellIndented_statement (h : d.Indented) (hst : st.isHeader = false) :
    WellIndented (d.statement st).rows := by
  rw [rows_statement]
  refine h.next.replace_last (fun _ hzero => ⟨hzero, hst⟩) (fun last _ hprecedes => ?_)
  exact ⟨hprecedes, hst⟩

end Indented

/-! ## Adding at a depth -/

/-- What `e` has more than `d` stands at least at the depth `n`. -/
def AddsFrom (d e : Document) (n : Nat) : Prop :=
  ∃ added, e.rows = d.rows ++ added ∧ ∀ r ∈ added, n ≤ r.depth

namespace AddsFrom

variable {f : Document} {n : Nat}

theorem of_rows_eq (h : e.rows = d.rows) : d.AddsFrom e n :=
  ⟨[], by rw [h, List.append_nil], fun r hr => (by cases hr)⟩

/-- What is added twice is added in one go. -/
theorem trans (h : d.AddsFrom e n) (h' : e.AddsFrom f n) : d.AddsFrom f n := by
  obtain ⟨added, hrows, hadded⟩ := h
  obtain ⟨added', hrows', hadded'⟩ := h'
  refine ⟨added ++ added', by rw [hrows', hrows, List.append_assoc], fun r hr => ?_⟩
  exact (List.mem_append.mp hr).elim (hadded r) (hadded' r)

theorem statement (d : Document) (hle : n ≤ d.depth) (st : Statement) :
    d.AddsFrom (d.statement st) n := by
  refine ⟨_, d.rows_statement st, fun r hr => ?_⟩
  rw [List.mem_singleton.mp hr]
  exact hle

theorem header (d : Document) (hle : n ≤ d.depth) (st : Statement) : d.AddsFrom (d.header st) n :=
  statement d hle st

/-- An empty block is filled at its own depth. -/
theorem closeScope (d : Document) (hle : n ≤ d.depth) : d.AddsFrom d.closeScope n := by
  unfold Document.closeScope
  cases d.scopes with
  | nil => exact of_rows_eq rfl
  | cons filled outer =>
    cases filled with
    | true => exact of_rows_eq rfl
    | false => exact statement d hle .pass

theorem closeAll (d : Document) : d.AddsFrom d.closeAll 0 := by
  unfold Document.closeAll
  generalize d.scopes = scopes
  induction scopes generalizing d with
  | nil => exact of_rows_eq rfl
  | cons _ scopes ih => exact (closeScope d (Nat.zero_le _)).trans (ih d.closeScope)

end AddsFrom

/-- What `e` has more than `d` belongs to the block that is open in `d`: it begins there, and
nothing of it is further out. -/
def AddsWithin (d e : Document) : Prop :=
  ∃ added, e.rows = d.rows ++ added ∧ (∀ r ∈ added, d.depth ≤ r.depth) ∧
    ∀ r ∈ added.head?, r.depth = d.depth

namespace AddsWithin

theorem of_rows_eq (h : e.rows = d.rows) : d.AddsWithin e :=
  ⟨[], by rw [h, List.append_nil], fun r hr => (by cases hr), fun r hr => (by cases hr)⟩

/-- Rows in the open block are at least as deep as any block around it. -/
theorem addsFrom (h : d.AddsWithin e) {n : Nat} (hle : n ≤ d.depth) : d.AddsFrom e n := by
  obtain ⟨added, hrows, hadded, -⟩ := h
  exact ⟨added, hrows, fun r hr => Nat.le_trans hle (hadded r hr)⟩

/-- The second addition starts in the same block, since the first one leaves it open. -/
theorem trans {f : Document} (hdepth : e.depth = d.depth) (h : d.AddsWithin e)
    (h' : e.AddsWithin f) : d.AddsWithin f := by
  obtain ⟨added, hrows, hadded, hfirst⟩ := h
  obtain ⟨added', hrows', hadded', hfirst'⟩ := h'
  rw [hdepth] at hadded' hfirst'
  refine ⟨added ++ added', by rw [hrows', hrows, List.append_assoc], fun r hr => ?_, ?_⟩
  · exact (List.mem_append.mp hr).elim (hadded r) (hadded' r)
  · cases added with
    | nil => exact hfirst'
    | cons r added => exact hfirst

/-- A statement, and what comes after it in its block or further in. -/
theorem of_statement {st : Statement} (h : (d.statement st).AddsFrom e d.depth) :
    d.AddsWithin e := by
  obtain ⟨added, hrows, hadded⟩ := h
  refine ⟨⟨d.depth, st⟩ :: added, ?_, List.forall_mem_cons.mpr ⟨Nat.le_refl _, hadded⟩, ?_⟩
  · rw [hrows, rows_statement, List.append_assoc]
    rfl
  · intro r hr
    rw [← Option.some.inj hr]

end AddsWithin

/-! ## Adding lines -/

@[simp] theorem entries_statement (d : Document) (st : Statement) :
    (d.statement st).entries.toList = d.entries.toList ++ [⟨d.depth, .statement st⟩] := by
  simp [Document.statement, push]

@[simp] theorem entries_comment (d : Document) (r : Remark) :
    (d.comment r).entries.toList = d.entries.toList ++ [⟨d.depth, .comment r⟩] := by
  simp [Document.comment, push]

@[simp] theorem entries_header (d : Document) (st : Statement) :
    (d.header st).entries.toList = d.entries.toList ++ [⟨d.depth, .statement st⟩] :=
  d.entries_statement st

/-- Statements in a row stand at one depth. -/
theorem entries_foldl_statement {α : Type} (f : α → Statement) (xs : List α) (d : Document) :
    (xs.foldl (fun d x => d.statement (f x)) d).entries.toList
      = d.entries.toList ++ xs.map fun x => ⟨d.depth, .statement (f x)⟩ := by
  induction xs generalizing d with
  | nil => simp
  | cons x xs ih =>
    rw [List.foldl_cons, ih, entries_statement, depth_statement]
    simp

/-- The lines of a block with its header: the statements that were added to it, or `pass`. -/
theorem entries_block {α : Type} (f : α → Statement) (xs : List α) (d : Document)
    (header : Statement) :
    (xs.foldl (fun d x => d.statement (f x)) (d.header header)).closeScope.entries.toList
      = d.entries.toList ++ ⟨d.depth, .statement header⟩ ::
          (if xs.isEmpty then [.pass] else xs.map f).map
            fun st => ⟨d.depth + 1, .statement st⟩ := by
  have hentries := entries_foldl_statement f xs (d.header header)
  have hscopes := scopes_foldl_statement f xs (d := d.header header) rfl
  cases xs with
  | nil =>
    have hclose : (d.header header).closeScope.entries
        = ((d.header header).statement .pass).entries := rfl
    rw [List.foldl_nil, hclose, entries_statement, entries_header, depth_header]
    simp
  | cons x xs =>
    generalize (x :: xs).foldl _ _ = block at hentries hscopes ⊢
    have hclose : block.closeScope.entries = block.entries := by
      unfold closeScope
      rw [hscopes]
      rfl
    rw [hclose, hentries, entries_header, depth_header]
    simp

/-- A statement fills the block it stands in, so the end of the block adds nothing. -/
theorem entries_closeScope_statement (d : Document) (s : Statement) :
    (d.statement s).closeScope.entries = (d.statement s).entries := by
  unfold closeScope Document.statement
  cases d.scopes with
  | nil => rfl
  | cons _ _ => rfl

/-- A block that is opened and closed leaves the depth. -/
theorem depth_block {α : Type} (f : α → Statement) (xs : List α) (d : Document)
    (header : Statement) :
    (xs.foldl (fun d x => d.statement (f x)) (d.header header)).closeScope.depth = d.depth := by
  have hscopes := scopes_foldl_statement f xs (d := d.header header) rfl
  rw [depth_closeScope, depth, hscopes, List.length_cons, Nat.add_sub_cancel]
  exact depth_statement d header

/-- The end of a block adds a line in the block, or none. -/
theorem entries_closeScope (d : Document) :
    ∃ lines, d.closeScope.entries.toList = d.entries.toList ++ lines ∧
      ∀ line ∈ lines, line.depth = d.depth := by
  unfold Document.closeScope
  cases d.scopes with
  | nil => exact ⟨[], (List.append_nil _).symm, fun line hline => (by cases hline)⟩
  | cons filled outer =>
    cases filled with
    | true => exact ⟨[], (List.append_nil _).symm, fun line hline => (by cases hline)⟩
    | false =>
      refine ⟨_, d.entries_statement .pass, fun line hline => ?_⟩
      rw [List.mem_singleton.mp hline]

/-- Closing a block only adds. -/
theorem isPrefix_closeScope (d : Document) : d.entries.toList <+: d.closeScope.entries.toList := by
  obtain ⟨lines, heq, -⟩ := d.entries_closeScope
  exact ⟨lines, heq.symm⟩

theorem entries_closeAll (d : Document) : d.entries.toList <+: d.closeAll.entries.toList := by
  unfold Document.closeAll
  generalize d.scopes = scopes
  induction scopes generalizing d with
  | nil => exact List.prefix_rfl
  | cons _ scopes ih => exact d.isPrefix_closeScope.trans (ih d.closeScope)

/-- The lines that `e` has more than `d`, comments among them, begin in the block that is open in
`d`, and none of them is further out. -/
def WritesWithin (d e : Document) : Prop :=
  ∃ lines, e.entries.toList = d.entries.toList ++ lines ∧ (∀ line ∈ lines, d.depth ≤ line.depth) ∧
    ∀ line ∈ lines.head?, line.depth = d.depth

namespace WritesWithin

theorem refl (d : Document) : d.WritesWithin d :=
  ⟨[], (List.append_nil _).symm, fun line hline => (by cases hline),
    fun line hline => (by cases hline)⟩

/-- The first line of both additions is the first one of whichever adds something. -/
theorem trans {f : Document} (hdepth : e.depth = d.depth) (h : d.WritesWithin e)
    (h' : e.WritesWithin f) : d.WritesWithin f := by
  obtain ⟨lines, heq, hlines, hfirst⟩ := h
  obtain ⟨lines', heq', hlines', hfirst'⟩ := h'
  rw [hdepth] at hlines' hfirst'
  refine ⟨lines ++ lines', by rw [heq', heq, List.append_assoc], fun line hline => ?_, ?_⟩
  · exact (List.mem_append.mp hline).elim (hlines line) (hlines' line)
  · cases lines with
    | nil => exact hfirst'
    | cons line lines => exact hfirst

/-- A line, and what comes after it in its block or further in. -/
theorem of_line {content : Content} {lines : List Entry}
    (heq : e.entries.toList = d.entries.toList ++ ⟨d.depth, content⟩ :: lines)
    (hlines : ∀ line ∈ lines, d.depth ≤ line.depth) : d.WritesWithin e := by
  refine ⟨_, heq, List.forall_mem_cons.mpr ⟨Nat.le_refl _, hlines⟩, fun line hline => ?_⟩
  rw [← Option.some.inj hline]

theorem statement (d : Document) (st : Statement) : d.WritesWithin (d.statement st) :=
  of_line (d.entries_statement st) fun line hline => (by cases hline)

theorem comment (d : Document) (r : Remark) : d.WritesWithin (d.comment r) :=
  of_line (d.entries_comment r) fun line hline => (by cases hline)

theorem header (d : Document) (st : Statement) : d.WritesWithin (d.header st) :=
  statement d st

/-- The lines that were there stay. -/
theorem isPrefix (h : d.WritesWithin e) : d.entries.toList <+: e.entries.toList := by
  obtain ⟨lines, heq, -⟩ := h
  exact ⟨lines, heq.symm⟩

/-- A header, the lines in its block, and the end of the block. -/
theorem block (hdepth : e.depth = d.depth + 1) (h : (d.header st).WritesWithin e) :
    d.WritesWithin e.closeScope := by
  obtain ⟨lines, heq, hlines, -⟩ := h
  obtain ⟨fill, hfill, hdepths⟩ := e.entries_closeScope
  have hall : e.closeScope.entries.toList
      = d.entries.toList ++ ⟨d.depth, .statement st⟩ :: (lines ++ fill) := by
    rw [hfill, heq, entries_header]
    simp
  refine of_line hall fun line hline => ?_
  rcases List.mem_append.mp hline with hline | hline
  · have hle := hlines line hline
    rw [depth_header] at hle
    omega
  · have heq := hdepths line hline
    omega

end WritesWithin

/-! ## Staying in a block -/

/-- What is added belongs to the block that is open, and it stays open. -/
structure Within (d e : Document) : Prop where
  depth_eq : e.depth = d.depth
  adds : d.AddsWithin e
  writes : d.WritesWithin e
  indented : d.Indented → e.Indented

namespace Within

theorem refl (d : Document) : d.Within d :=
  ⟨rfl, .of_rows_eq rfl, .refl d, id⟩

/-- One block stays open through both. -/
theorem trans {f : Document} (h : d.Within e) (h' : e.Within f) : d.Within f :=
  ⟨h'.depth_eq.trans h.depth_eq, h.adds.trans h.depth_eq h'.adds,
    h.writes.trans h.depth_eq h'.writes, fun hd => h'.indented (h.indented hd)⟩

theorem statement (d : Document) (hst : st.isHeader = false) : d.Within (d.statement st) :=
  ⟨d.depth_statement st, .of_statement (.of_rows_eq rfl), .statement d st, fun h => h.statement hst⟩

theorem comment (d : Document) (r : Remark) : d.Within (d.comment r) :=
  ⟨rfl, .of_rows_eq (d.rows_comment r), .comment d r, fun h => h.comment r⟩

/-- A header, what is done in its block, and the end of the block. -/
theorem block (hst : st.isHeader = true) (h : (d.header st).Within e) : d.Within e.closeScope := by
  have hdepth : e.depth = d.depth + 1 := h.depth_eq.trans (d.depth_header st)
  refine ⟨by rw [depth_closeScope, hdepth, Nat.add_sub_cancel], ?_, .block hdepth h.writes,
    fun hd => (h.indented (hd.header hst)).closeScope⟩
  have hinner : (d.header st).AddsFrom e d.depth := by
    refine h.adds.addsFrom ?_
    rw [depth_header]
    exact Nat.le_succ _
  have hend : e.AddsFrom e.closeScope d.depth := by
    refine .closeScope e ?_
    rw [hdepth]
    exact Nat.le_succ _
  exact .of_statement (hinner.trans hend)

/-- A loop stays in the block if each of its rounds does. -/
theorem foldl {α : Type} {f : Document → α → Document} (hf : ∀ (d : Document) x, d.Within (f d x))
    (xs : List α) (d : Document) : d.Within (xs.foldl f d) := by
  induction xs generalizing d with
  | nil => exact refl d
  | cons x xs ih => exact (hf d x).trans (ih (f d x))

/-- The lines of a shot are in a block of their own. -/
theorem shot (d : Document) (s : Shot) (lines : List AtlLine) : d.Within (d.shot s lines) := by
  unfold Document.shot
  split
  · exact statement d rfl
  · have hlines : ∀ (d : Document) (line : AtlLine), d.Within (d.statement (.atl line)) :=
      fun d _ => statement d rfl
    have hheader : (Statement.shot s true).isHeader = true := rfl
    exact block hheader (foldl hlines lines _)

/-- Each cue is a statement, or a header with its block closed again. -/
theorem cues (cues : List Stage.Cue) (d : Document) : d.Within (cues.foldl Document.cue d) := by
  refine foldl (fun d cue => ?_) cues d
  cases cue with
  | draw s lines => exact shot d s lines
  | hide tag =>
    have hflat : (Statement.hide tag).isHeader = false := rfl
    exact statement d hflat

end Within

end Document

end Rio.Renpy
