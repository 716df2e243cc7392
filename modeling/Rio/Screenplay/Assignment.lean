import Rio.Screenplay.Command
import Rio.Screenplay.State

/-!
# Assignments

Flags are read and written through the expressions that the profile grants. An assignment in which a
flag may not be used is dropped; comments tell what it would have been, as far as the profile asks.
-/

namespace Rio.Screenplay

open Renpy (AssignOp Remark)

/-- A number on the right side; a flag that is set to zero or one is set to a truth value. -/
def immediateText (op : AssignOp) (value : Int) : String :=
  if op == .set && value == 0 then "False"
  else if op == .set && value == 1 then "True"
  else toString value

/-- The expression of a right side. -/
def sourceText (c : Context) (s : State) (op : AssignOp) : Source → Option String × State
  | .immediate value => (some (immediateText op value), s)
  | .flag addr => s.access addr (flagAccess c.profile addr) fun _ => .hintedSource 1 addr
  | .through addr => s.access addr (flagAccessThrough c.profile addr) fun _ => .hintedSource 2 addr

/-- An assignment. -/
def assign (c : Context) (s : State) (flag : Int) (op : AssignOp) (source : Source) : State :=
  let (value?, s) := sourceText c s op source
  let (reference?, s) := s.access flag (flagAccess c.profile flag) fun r =>
    .hintedAssign r op (value?.getD "<NO_RESULT>")
  match reference?, value? with
  | none, _ => s
  | some reference, some value => s.emit (.assign reference op value)
  | some reference, none => s.remark (.droppedAssign reference op)

/-- An assignment of a random number. -/
def assignRandom (c : Context) (s : State) (flag max : Int) : State :=
  let value := "renpy.random.randint(0, " ++ toString max ++ ")"
  let (reference?, s) := s.access flag (flagAccess c.profile flag) fun r =>
    .hintedAssign r .set value
  match reference? with
  | some reference => s.emit (.assign reference .set value)
  | none => s

/-- Clears the flags that do not outlive a playthrough. -/
def clearFlags (c : Context) (s : State) : State :=
  (c.profile.flagBanks.filter (!·.isPersistent)).foldl
    (fun s bank => s.emit (.clearBank bank.name)) s

end Rio.Screenplay
