import Rio.Renpy.Remark
import Rio.Report

/-!
# Documents

A generated script under construction: entries, each at the depth of the block it stands in, and
the blocks that are still open. A block may not stay empty: one that closes without a statement of
its own is given `pass`. Comments do not count as statements.
-/

namespace Rio.Renpy

/-- What a line of a document holds. -/
inductive Content where
  | statement (s : Statement)
  | comment (r : Remark)
deriving Repr

/-- A line without its indentation. -/
def Content.text : Content → String
  | statement s => s.text
  | comment r => "# " ++ r.text

/-- One line of a document, in a block of some depth. -/
structure Entry where
  depth : Nat
  content : Content
deriving Repr

/-- The line as it is written. -/
def Entry.line (indent : String) (e : Entry) : String :=
  String.join (List.replicate e.depth indent) ++ e.content.text ++ "\n"

/-- A document. `scopes` has an element for each open block, the innermost first: whether it has
received a statement. -/
structure Document where
  entries : Array Entry := #[]
  scopes : List Bool := []
deriving Repr

namespace Document

/-- The number of open blocks. -/
def depth (d : Document) : Nat :=
  d.scopes.length

/-- A document without lines. -/
def isEmpty (d : Document) : Bool :=
  d.entries.isEmpty

/-- Adds a line at the present depth. -/
def push (d : Document) (content : Content) : Document :=
  { d with entries := d.entries.push ⟨d.depth, content⟩ }

/-- Adds a statement. -/
def statement (d : Document) (s : Statement) : Document :=
  let scopes :=
    match d.scopes with
    | [] => []
    | _ :: outer => true :: outer
  { d.push (.statement s) with scopes }

/-- Adds a comment. -/
def comment (d : Document) (r : Remark) : Document :=
  d.push (.comment r)

/-- Opens a block. -/
def openScope (d : Document) : Document :=
  { d with scopes := false :: d.scopes }

/-- Closes the innermost block, filling it if it is empty. Without an open block nothing happens. -/
def closeScope (d : Document) : Document :=
  match d.scopes with
  | [] => d
  | true :: outer => { d with scopes := outer }
  | false :: outer => { d.statement .pass with scopes := outer }

/-- Closes every open block. -/
def closeAll (d : Document) : Document :=
  d.scopes.foldl (fun d _ => d.closeScope) d

/-- Adds a statement and opens the block under it. -/
def header (d : Document) (s : Statement) : Document :=
  (d.statement s).openScope

/-- Adds a shot with the lines of its block, if it has any. -/
def shot (d : Document) (s : Shot) (lines : List AtlLine) : Document :=
  if lines.isEmpty then d.statement (.shot s false)
  else (lines.foldl (fun d line => d.statement (.atl line)) (d.header (.shot s true))).closeScope

/-- The text of a document, each depth indented by one more unit. -/
def render (d : Document) (indent : String) : String :=
  String.join (d.entries.toList.map (Entry.line indent))

/-- The unit of indentation of generated scripts. -/
def indentUnit : String := "  "

/-- The text of a generated script. -/
def text (d : Document) : String :=
  d.render indentUnit

end Document

/-! ## Edits -/

/-- One way to extend a document. -/
inductive Edit where
  | statement (s : Statement)
  | comment (r : Remark)
  | openScope
  | closeScope
  | closeAll
deriving Repr

namespace Document

/-- A document after an edit. -/
def apply (d : Document) : Edit → Document
  | .statement s => d.statement s
  | .comment r => d.comment r
  | .openScope => d.openScope
  | .closeScope => d.closeScope
  | .closeAll => d.closeAll

/-- What is to be said about an edit of a document. -/
def editRecords (d : Document) : Edit → List Record
  | .closeScope => if d.scopes.isEmpty then [⟨.warn, "closing a scope at depth 0"⟩] else []
  | _ => []

end Document

end Rio.Renpy
