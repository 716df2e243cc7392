import Rio.Screenplay.Command
import Rio.Screenplay.State

/-!
# Control flow

Branches become blocks that close where the branch would have gone, jumps become labels. A label
closes the block it falls into and opens its own, so that the number of open blocks stays the same.
-/

namespace Rio.Screenplay

open Renpy (Statement Remark Label)

/-- Closes the branches that end at an address. -/
def State.closeBranches (s : State) (addr : Nat) : State :=
  let closed := (s.scopeEnds.takeWhile (· == addr)).foldl (fun s _ => s.closeScope) s
  { closed with scopeEnds := s.scopeEnds.dropWhile (· == addr) }

/-- Sets the label of an address that is jumped to. -/
def State.placeLabel (s : State) (c : Context) (addr : Nat) : State :=
  if s.pendingLabels.contains addr then
    { s with pendingLabels := s.pendingLabels.filter (· != addr) }.closeScope.header
      (.label (c.label addr))
  else s

/-- The lines at an end of a range of scenes: at its start the way around it, at its end the label
that the way leads to. -/
def State.placeSkipMark (s : State) (c : Context) (addr : Nat) : State :=
  match c.skipMark? addr with
  | none => s
  | some (.start index insertTransition stopScript) =>
    let guarded :=
      (s.remark (.skipStart index)).header (.ifNotPersistent c.profile.adultSkip.variableName)
    let shown :=
      if insertTransition then (guarded.emit .blackScene).emit (.pause 1000) else guarded
    (shown.emit (.jump (.skipEnd stopScript index))).closeScope
  | some (.stop index) =>
    (s.closeScope.remark (.skipEnd index)).header (.label (.skipEnd c.name index))

/-- A branch opens a block that depends on its comparison. -/
def branch (c : Context) (s : State) (b : Branch) : State :=
  let (reference?, s) :=
    s.access b.flag (flagAccess c.profile b.flag) fun r => .hintedBranch r b.cmp b.value
  let opened :=
    match reference? with
    | some reference => s.header (.ifFlag reference b.cmp b.value)
    | none => (s.remark (.inaccessibleBranch b.flag)).header .ifFalse
  { opened with scopeEnds := b.close :: opened.scopeEnds }

/-- A jump within the script; its goal needs a label. -/
def jump (c : Context) (s : State) (target : Nat) : State :=
  let s := s.emit (.jump (c.label target))
  { s with
    pendingLabels :=
      if s.pendingLabels.contains target then s.pendingLabels else target :: s.pendingLabels }

/-- What goes with a call. -/
def applyHook (s : State) : HookAction → State
  | .statement text => s.emit (.verbatim text)
  | .standIn slot reference =>
    { s with stage := s.stage.setForeground slot ⟨.standIn reference, false⟩ }

/-- A call of another script. -/
def call (c : Context) (s : State) (script : List UInt8) : State :=
  let name := c.scriptName script
  (c.profile.hooks name).foldl applyHook (s.emit (.call (.script name)))

/-- One choice of a menu, its flag found to be of some use. -/
def offer (c : Context) (s : State) (o : MenuOption) (found : FlagAccess) : State :=
  let text := c.dialogue o.text
  let (reference?, s) := s.access o.flag found .hintedChoice
  let opened :=
    match reference? with
    | some reference => s.header (.choice text (some reference))
    | none => (s.remark (.inaccessibleChoice o.flag)).header (.choice text none)
  (opened.emit (.jump (.script (c.scriptName o.target)))).closeScope

/-- One choice of a menu. -/
def choice (c : Context) (s : State) (o : MenuOption) : State :=
  offer c s o (flagAccess c.profile o.flag)

end Rio.Screenplay
