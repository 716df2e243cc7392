import Rio.Proofs.Observation
import Rio.Renpy.Document

/-!
# Playing a document

How a document runs, as far as control flow goes. Comments do nothing, so what counts are the
rows: the statements with their depths. The player stands in front of a row, and its state is what
is left of the rows:

* a label or `pass` is stepped over, whatever block the row before it was in;
* `if` goes on with the next row, or skips the deeper rows under it;
* `jump` goes to the first row that sets its label, and leaves the script if no row does;
* the end of the rows is the end of the script.

Whether the depths make blocks at all is a question of its own, `WellIndented`: a row stands one
deeper than a header before it, and no deeper than any other row, and no block is empty.
-/

namespace Rio.Renpy

/-- A statement and the depth that it stands at. -/
structure Row where
  depth : Nat
  statement : Statement
deriving Repr

/-- The row of an entry that is no comment. -/
def Entry.row? (e : Entry) : Option Row :=
  match e.content with
  | .statement s => some ⟨e.depth, s⟩
  | .comment _ => none

/-- The statements of a document. -/
def Document.rows (d : Document) : List Row :=
  d.entries.toList.filterMap Entry.row?

/-- The label that a row sets. -/
def Row.label? (r : Row) : Option String :=
  match r.statement with
  | .label l => some l.text
  | _ => none

/-- Whether a row sets a label. -/
def Row.sets (r : Row) (label : String) : Bool :=
  r.label? == some label

/-- The rows from a label on. -/
def seek (label : String) (rows : List Row) : List Row :=
  rows.dropWhile fun r => !r.sets label

/-- The rows that follow the block under a header of some depth. -/
def skipBlock (depth : Nat) (rows : List Row) : List Row :=
  rows.dropWhile fun r => decide (depth < r.depth)

/-- What the player of a program does in front of its last rows. -/
def follow (program : List Row) : List Row → Move (List Row)
  | [] => .stop .finish
  | r :: rest =>
    match r.statement with
    | .pass | .label _ => .go rest
    | .pause ms => .tell (.pause ms) rest
    | .ret => .stop .ret
    | .ifFlag reference cmp value =>
      .ask (.compare reference cmp value) rest (skipBlock r.depth rest)
    | .jump l =>
      if (seek l.text program).isEmpty then .stop (.leave l.text) else .go (seek l.text program)
    | _ => .stop .stuck

/-- Whether a row may stand right before another one. -/
def Row.Precedes (r r' : Row) : Prop :=
  if r.statement.isHeader then r'.depth = r.depth + 1 else r'.depth ≤ r.depth

/-- Whether the depths of rows make blocks after a row: each one stands under the header before it
or in a block that is open, and the last one opens none. -/
def Row.Leads (r : Row) : List Row → Prop
  | [] => r.statement.isHeader = false
  | r' :: rest => r.Precedes r' ∧ r'.Leads rest

/-- Rows whose depths make blocks, the first one in none. -/
def WellIndented : List Row → Prop
  | [] => True
  | r :: rest => r.depth = 0 ∧ r.Leads rest

theorem Row.Leads.precedes {r : Row} {rows : List Row} (h : r.Leads rows) :
    ∀ r' ∈ rows.head?, r.Precedes r' := by
  intro r' hr'
  cases rows with
  | nil => cases hr'
  | cons r'' rest =>
    obtain rfl := Option.some.inj hr'
    exact h.1

/-! ## Rows of a growing document -/

namespace Document

@[simp] theorem rows_statement (d : Document) (s : Statement) :
    (d.statement s).rows = d.rows ++ [⟨d.depth, s⟩] := by
  simp [rows, statement, push, Entry.row?]

@[simp] theorem rows_comment (d : Document) (r : Remark) : (d.comment r).rows = d.rows := by
  simp [rows, comment, push, Entry.row?]

@[simp] theorem rows_header (d : Document) (s : Statement) :
    (d.header s).rows = d.rows ++ [⟨d.depth, s⟩] :=
  d.rows_statement s

/-- A statement fills the block that it stands in. -/
theorem scopes_statement {d : Document} {filled : Bool} {outer : List Bool}
    (h : d.scopes = filled :: outer) (s : Statement) : (d.statement s).scopes = true :: outer := by
  simp [statement, h]

/-- A block that statements are added to one by one is not empty if there are any. -/
theorem scopes_foldl_statement {α : Type} (f : α → Statement) (xs : List α) {d : Document}
    {filled : Bool} {outer : List Bool} (h : d.scopes = filled :: outer) :
    (xs.foldl (fun d x => d.statement (f x)) d).scopes = (filled || !xs.isEmpty) :: outer := by
  induction xs generalizing d filled with
  | nil => simp [h]
  | cons x xs ih =>
    rw [List.foldl_cons, ih (scopes_statement h (f x))]
    simp

/-- A header fills its block and opens an empty one. -/
theorem scopes_header {d : Document} {filled : Bool} {outer : List Bool}
    (h : d.scopes = filled :: outer) (s : Statement) :
    (d.header s).scopes = false :: true :: outer := by
  simp [header, openScope, scopes_statement h]

theorem scopes_closeScope {d : Document} {filled : Bool} {outer : List Bool}
    (h : d.scopes = filled :: outer) : d.closeScope.scopes = outer := by
  unfold closeScope
  rw [h]
  cases filled <;> rfl

/-- Closing a block adds `pass` if the block is empty. -/
theorem rows_closeScope {d : Document} {filled : Bool} {outer : List Bool}
    (h : d.scopes = filled :: outer) :
    d.closeScope.rows = d.rows ++ if filled then [] else [⟨d.depth, .pass⟩] := by
  unfold closeScope
  rw [h]
  cases filled with
  | true => simp [rows]
  | false => exact d.rows_statement .pass

end Document

/-! ## Silent rows -/

/-- A row that the player steps over. -/
def Row.IsSilent (r : Row) : Prop :=
  r.statement = .pass ∨ ∃ l, r.statement = .label l

/-- The player steps over silent rows. -/
theorem silent_append {program noise : List Row} (h : ∀ r ∈ noise, r.IsSilent) (rows : List Row) :
    Silent (follow program) (noise ++ rows) rows := by
  induction noise with
  | nil => exact .refl rows
  | cons r noise ih =>
    refine .go ?_ (ih fun r' hr' => h r' (List.mem_cons_of_mem _ hr'))
    rcases h r (List.mem_cons_self ..) with hpass | ⟨l, hlabel⟩
    · simp [follow, hpass]
    · simp [follow, hlabel]

/-! ## Labels are told apart by their texts -/

/-- Labels of two addresses in one script differ. -/
theorem Label.address_inj {name : String} {a b : Nat}
    (h : (Label.address name a).text = (Label.address name b).text) : a = b := by
  have hrepr : toString a = toString b := (String.append_right_inj _).mp h
  have hdigits : Nat.toDigits 10 a = Nat.toDigits 10 b := by
    rw [← Nat.toList_repr, ← Nat.toList_repr]
    exact congrArg String.toList hrepr
  rw [← Nat.ofDigitChars_ten_toDigits (n := a), hdigits, Nat.ofDigitChars_ten_toDigits]

theorem Label.eq_of_script_text {script name : String} {a : Nat}
    (h : (Label.script script).text = (Label.address name a).text) :
    script = name ++ "_" ++ toString a := by
  have htext : "RIO_" ++ script = "RIO_" ++ name ++ "_" ++ toString a := h
  rw [String.append_assoc, String.append_assoc] at htext
  rw [String.append_assoc]
  exact (String.append_right_inj _).mp htext

/-- The label of a script is none of its addresses. -/
theorem Label.script_ne_address (name : String) (a : Nat) :
    (Label.script name).text ≠ (Label.address name a).text := by
  intro h
  have hlength := congrArg String.length (Label.eq_of_script_text h)
  have hone : "_".length = 1 := rfl
  rw [String.length_append, String.length_append] at hlength
  omega

/-! ## Looking for rows -/

/-- Rows that set another label are passed over. -/
theorem seek_append {label : String} {before : List Row} (h : ∀ r ∈ before, r.sets label = false)
    (rows : List Row) : seek label (before ++ rows) = seek label rows :=
  List.dropWhile_append_of_pos fun r hr => by rw [h r hr]; rfl

/-- Deeper rows are passed over. -/
theorem skipBlock_append {depth : Nat} {before : List Row} (h : ∀ r ∈ before, depth < r.depth)
    (rows : List Row) : skipBlock depth (before ++ rows) = skipBlock depth rows :=
  List.dropWhile_append_of_pos fun r hr => decide_eq_true (h r hr)

/-- A block ends in front of a row that is no deeper than its header. -/
theorem skipBlock_eq_self {depth : Nat} {rows : List Row} (h : ∀ r ∈ rows.head?, r.depth ≤ depth) :
    skipBlock depth rows = rows := by
  cases rows with
  | nil => rfl
  | cons r rest =>
    have hle : r.depth ≤ depth := h r rfl
    exact List.dropWhile_cons_of_neg (by simpa using hle)

end Rio.Renpy
