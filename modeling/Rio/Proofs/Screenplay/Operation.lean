import Rio.Proofs.Bytecode.Operands
import Rio.Proofs.Observation
import Rio.Screenplay.State

/-!
# Running a script

How a script itself runs, as far as control flow goes. An `Operation` is what an instruction means
to the machine that runs it: a branch compares a flag and goes on after itself or where it closes,
a jump goes to its goal, a pause waits, and the rest leave the script. The machine stands at an
address; markers for missing terminators are nothing to it.

`Structured` collects what a script needs for its branches to be blocks: branches go forward and
close in the reverse order in which they open, and no jump leads into what depends on a branch.
-/

namespace Rio

open Renpy (Label)
open Screenplay (flagAccess)

namespace Screenplay

/-- What an instruction that steers a run means. -/
inductive Operation where
  /-- Goes on after itself if the comparison holds, at `close` if not. -/
  | branch (reference : String) (cmp : Comparison) (value : Int) (close : Nat)
  | jump (goal : Nat)
  /-- Goes on in another script. -/
  | leave (script : String)
  | ret
  | pause (ms : Int)
deriving Repr, DecidableEq

/-- What an operation does whose next instruction is at an address. -/
def Operation.move (next : Nat) : Operation → Move Nat
  | branch reference cmp value close => .ask (.compare reference cmp value) next close
  | jump goal => .go goal
  | leave script => .stop (.leave (Label.script script).text)
  | ret => .stop .ret
  | pause ms => .tell (.pause ms) next

end Screenplay

open Screenplay (Operation)

namespace Instruction

/-- Where a branch goes if its comparison fails: as many bytes further on as its last operand
says. -/
def close? (i : Instruction) : Option Nat :=
  if i.mnemonic.isConditional then (i.int? 2).bind fun rel => addressOfInt? (i.next + rel) else none

/-- Where a jump goes. -/
def goal? (i : Instruction) : Option Nat :=
  if i.mnemonic = .jmpOffset then (i.int? 0).bind addressOfInt? else none

/-- The flag that a branch compares. -/
def comparedFlag? (i : Instruction) : Option Int :=
  if i.mnemonic.isConditional then i.int? 0 else none

/-- The script that a goto goes on in. -/
def script? (i : Instruction) (p : Profile) : Option String :=
  if i.mnemonic = .goto then (i.bytes? 0).map fun raw => Unicode.toUpper (p.text raw)
  else none

/-- What an instruction means. -/
def operation? (p : Profile) (i : Instruction) : Option Operation :=
  match i.mnemonic with
  | .jmpOffset => i.goal?.map .jump
  | .goto => (i.script? p).map .leave
  | .ret => some .ret
  | .sleep => (i.int? 0).map .pause
  | m => do
    let cmp ← m.comparison?
    let flag ← i.comparedFlag?
    let value ← i.int? 1
    let close ← i.close?
    match flagAccess p flag with
    | .granted reference => some (.branch reference cmp value close)
    | _ => none

end Instruction

/-- The instruction at an address. -/
def instructionAt? (instructions : List Instruction) (addr : Nat) : Option Instruction :=
  instructions.find? fun i => i.addr == addr && i.mnemonic != .notTerminated

/-- What the machine does at an address of a script. -/
def interpret (p : Profile) (instructions : List Instruction) (addr : Nat) : Move Nat :=
  match instructionAt? instructions addr with
  | none => .stop .stuck
  | some i =>
    if i.mnemonic = .endOfStream then .stop .finish
    else
      match i.operation? p with
      | some o => o.move i.next
      | none => .stop .stuck

/-- A script whose branches are blocks. -/
structure Structured (p : Profile) (name : String) (l : List Instruction) : Prop where
  /-- It does nothing but branch, jump, leave and pause. -/
  plain : ∀ i ∈ l, i.mnemonic.isConditional ∨
    i.mnemonic ∈ [.jmpOffset, .goto, .ret, .sleep, .notTerminated, .endOfStream]
  /-- It may use the flags that it compares. -/
  granted : ∀ i ∈ l, ∀ flag ∈ i.comparedFlag?, ∃ reference, flagAccess p flag = .granted reference
  /-- Branches go forward, to an instruction. -/
  closes : ∀ b ∈ l, b.mnemonic.isConditional →
    ∃ close ∈ b.close?, b.next ≤ close ∧ ∃ j ∈ l, j.addr = close
  /-- A branch that depends on another one closes no later. -/
  nests : ∀ b ∈ l, ∀ close ∈ b.close?, ∀ b' ∈ l, ∀ close' ∈ b'.close?,
    b.next ≤ b'.addr → b'.addr < close → close' ≤ close
  /-- Jumps lead to an instruction that depends on no branch. -/
  lands : ∀ i ∈ l, i.mnemonic = .jmpOffset →
    ∃ goal ∈ i.goal?, (∃ j ∈ l, j.addr = goal) ∧
      ∀ b ∈ l, ∀ close ∈ b.close?, goal < b.next ∨ close ≤ goal
  /-- It does not leave for a label of its own. -/
  leaves : ∀ i ∈ l, ∀ script ∈ i.script? p,
    script ≠ name ∧ ∀ k : Nat, script ≠ name ++ "_" ++ toString k

/-! ## What the operation of an instruction says about it -/

/-- What an instruction is that means an operation. -/
def Screenplay.Operation.Of (p : Profile) (i : Instruction) : Operation → Prop
  | branch reference cmp value close =>
    i.mnemonic.comparison? = some cmp ∧
      (∃ flag, i.int? 0 = some flag ∧ flagAccess p flag = .granted reference) ∧
      i.int? 1 = some value ∧ i.close? = some close
  | jump goal => i.mnemonic = .jmpOffset ∧ i.goal? = some goal
  | leave script => i.mnemonic = .goto ∧ i.script? p = some script
  | ret => i.mnemonic = .ret
  | pause ms => i.mnemonic = .sleep ∧ i.int? 0 = some ms

namespace Instruction

variable {p : Profile} {i : Instruction} {o : Operation}

theorem of_operation? (h : i.operation? p = some o) : o.Of p i := by
  unfold operation? at h
  split at h
  · next hm =>
    obtain ⟨goal, hgoal, rfl⟩ := Option.map_eq_some_iff.mp h
    exact ⟨hm, hgoal⟩
  · next hm =>
    obtain ⟨script, hscript, rfl⟩ := Option.map_eq_some_iff.mp h
    exact ⟨hm, hscript⟩
  · next hm =>
    obtain rfl := Option.some.inj h
    exact hm
  · next hm =>
    obtain ⟨ms, hms, rfl⟩ := Option.map_eq_some_iff.mp h
    exact ⟨hm, hms⟩
  · simp only [Option.bind_eq_bind, Option.bind_eq_some_iff] at h
    obtain ⟨cmp, hcmp, flag, hflag, value, hvalue, close, hclose, h⟩ := h
    split at h
    · next reference hgranted =>
      obtain rfl := Option.some.inj h
      have hcond : i.mnemonic.isConditional = true := by rw [Mnemonic.isConditional, hcmp]; rfl
      rw [comparedFlag?, if_pos hcond] at hflag
      exact ⟨hcmp, ⟨flag, hflag, hgranted⟩, hvalue, hclose⟩
    · exact absurd h (by simp)

/-- Only instructions that are no markers mean something. -/
theorem isProper_of_operation? (h : i.operation? p = some o) : i.IsProper := by
  constructor <;>
    · intro hm
      rw [operation?, hm] at h
      cases h

end Instruction

/-- In a structured script every instruction but the markers means something. -/
theorem Structured.exists_operation? {p : Profile} {name : String} {l : List Instruction}
    (hl : Structured p name l)
    (hkinds : ∀ i ∈ l, ∀ kinds ∈ i.mnemonic.operands?,
      i.operands.map Operand.kind? = kinds.map some)
    {i : Instruction} (hi : i ∈ l) (hproper : i.IsProper) : ∃ o, i.operation? p = some o := by
  have hfits := hkinds i hi
  rcases hl.plain i hi with hcond | hmem
  · have hops : i.mnemonic.operands? = some [.number, .number, .number] := if_pos hcond
    obtain ⟨flag, hflag⟩ := Instruction.exists_int? (k := 0) (hfits _ hops) rfl
    obtain ⟨value, hvalue⟩ := Instruction.exists_int? (k := 1) (hfits _ hops) rfl
    obtain ⟨close, hclose, -⟩ := hl.closes i hi hcond
    have hcompared : i.comparedFlag? = some flag := by
      rw [Instruction.comparedFlag?, if_pos hcond, hflag]
    obtain ⟨reference, hgranted⟩ := hl.granted i hi flag hcompared
    obtain ⟨cmp, hcmp⟩ := Option.isSome_iff_exists.mp hcond
    refine ⟨.branch reference cmp value close, ?_⟩
    unfold Instruction.operation?
    -- what compares is none of the instructions that are read apart
    split
    · next hm => rw [hm] at hcmp; cases hcmp
    · next hm => rw [hm] at hcmp; cases hcmp
    · next hm => rw [hm] at hcmp; cases hcmp
    · next hm => rw [hm] at hcmp; cases hcmp
    · simp only [Option.bind_eq_bind, hcmp, hcompared, hvalue, Option.mem_def.mp hclose,
        Option.bind_some, hgranted]
  · simp only [List.mem_cons, List.not_mem_nil, or_false] at hmem
    unfold Instruction.operation?
    rcases hmem with hm | hm | hm | hm | hm | hm
    · obtain ⟨goal, hgoal, -⟩ := hl.lands i hi hm
      rw [hm]
      exact ⟨.jump goal, by simp only [Option.mem_def.mp hgoal, Option.map_some]⟩
    · have hops : i.mnemonic.operands? = some [.string] := by rw [hm]; rfl
      obtain ⟨raw, hraw⟩ := Instruction.exists_bytes? (k := 0) (hfits _ hops) rfl
      rw [hm]
      refine ⟨.leave (Unicode.toUpper (p.text raw)), ?_⟩
      simp only [Instruction.script?, if_pos hm, hraw, Option.map_some]
    · rw [hm]
      exact ⟨.ret, rfl⟩
    · have hops : i.mnemonic.operands? = some [.number] := by rw [hm]; rfl
      obtain ⟨ms, hms⟩ := Instruction.exists_int? (k := 0) (hfits _ hops) rfl
      rw [hm]
      exact ⟨.pause ms, by simp only [hms, Option.map_some]⟩
    · exact absurd hm hproper.1
    · exact absurd hm hproper.2

/-- Where a branch of a structured script closes. -/
theorem Structured.of_close? {p : Profile} {name : String} {l : List Instruction}
    (hl : Structured p name l) {b : Instruction} (hb : b ∈ l) {close : Nat}
    (hclose : b.close? = some close) : b.next ≤ close ∧ ∃ j ∈ l, j.addr = close := by
  have hcond : b.mnemonic.isConditional := by
    unfold Instruction.close? at hclose
    split at hclose
    · assumption
    · cases hclose
  obtain ⟨close', hclose', hfacts⟩ := hl.closes b hb hcond
  rw [hclose] at hclose'
  obtain rfl := Option.some.inj hclose'
  exact hfacts

/-- Where a jump of a structured script leads. -/
theorem Structured.of_goal? {p : Profile} {name : String} {l : List Instruction}
    (hl : Structured p name l) {i : Instruction} (hi : i ∈ l) {goal : Nat}
    (hgoal : i.goal? = some goal) :
    (∃ j ∈ l, j.addr = goal) ∧ ∀ b ∈ l, ∀ close ∈ b.close?, goal < b.next ∨ close ≤ goal := by
  have hm : i.mnemonic = .jmpOffset := by
    unfold Instruction.goal? at hgoal
    split at hgoal
    · assumption
    · cases hgoal
  obtain ⟨goal', hgoal', hfacts⟩ := hl.lands i hi hm
  rw [hgoal] at hgoal'
  obtain rfl := Option.some.inj hgoal'
  exact hfacts

/-! ## Finding an instruction -/

/-- The machine finds the instruction that starts at an address. -/
theorem Bytecode.Placed.instructionAt?_eq {stop addr : Nat} {l : List Instruction}
    (h : Bytecode.Placed stop addr l) :
    ∀ i ∈ l, i.mnemonic ≠ .notTerminated → instructionAt? l i.addr = some i := by
  unfold instructionAt?
  induction h with
  | last =>
    intro i hi _
    rw [List.mem_singleton.mp hi]
    exact List.find?_cons_of_pos (by simp [Instruction.marker])
  | @proper j rest hproper hpos hrest ih =>
    intro i hi hne
    rcases List.mem_cons.mp hi with rfl | hi
    · exact List.find?_cons_of_pos (by simp [hne])
    · -- what comes later starts later
      have hle := hrest.le_addr i hi
      rw [List.find?_cons_of_neg]
      · exact ih i hi hne
      · have : j.addr ≠ i.addr := by
          unfold Instruction.next at hle
          omega
        simp [this]
  | unterminated _ _ ih =>
    intro i hi hne
    rcases List.mem_cons.mp hi with rfl | hi
    · exact absurd rfl hne
    · rw [List.find?_cons_of_neg (by simp [Instruction.marker])]
      exact ih i hi hne

end Rio
