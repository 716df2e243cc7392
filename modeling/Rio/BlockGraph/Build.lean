import Rio.BlockGraph.Basic
import Rio.Charset.Utf8
import Rio.Report

/-!
# Building the block graph

The blocks are found in one pass over the instructions. A branch opens the blocks it leads to; a
branch into a block that is already closed divides it, and the edges that left the old block then
leave its second part. Blocks that never closed or hold nothing are dropped at the end.
-/

namespace Rio.BlockGraph

/-- The blocks found so far, in the order in which they were found, and the reports. -/
structure Draft where
  blocks : List Block
  records : List Record
deriving Repr, DecidableEq

namespace Draft

/-- Adds a report. -/
def report (d : Draft) (severity : Severity) (message : String) : Draft :=
  { d with records := d.records ++ [⟨severity, message⟩] }

/-- Whether a block starts at an address. -/
def has (d : Draft) (entry : Nat) : Bool :=
  d.blocks.any (·.entry == entry)

/-- Changes the block that starts at an address. -/
def update (d : Draft) (entry : Nat) (change : Block → Block) : Draft :=
  { d with blocks := d.blocks.map fun b => if b.entry == entry then change b else b }

/-- Records a predecessor of the block at an address, if there is one to record. -/
def link (d : Draft) (entry : Nat) (predecessor : Option Nat) : Draft :=
  match predecessor with
  | none => d
  | some p => d.update entry fun b => { b with predecessors := b.predecessors ++ [p] }

/-- Divides `head` so that a block starts at `addr`. The second part takes over how `head` was left,
and the blocks it leads to are told that control comes from there. -/
def divide (d : Draft) (head : Block) (addr : Nat) : Draft :=
  let tail : Block := { head with entry := addr, predecessors := [head.entry] }
  let shorten (b : Block) : Block :=
    { b with exit := some addr, kind := .linear, trueTarget := some addr, falseTarget := none,
             procedures := [] }
  let redirect (b : Block) : Block :=
    if some b.entry == tail.trueTarget || some b.entry == tail.falseTarget then
      { b with predecessors := b.predecessors.map fun p => if p == head.entry then addr else p }
    else b
  let shortened := d.update head.entry shorten
  { shortened with blocks := shortened.blocks.map redirect ++ [tail] }.report .trace
    ("split block " ++ Numeral.hexLiteral head.entry ++ " at " ++ Numeral.hexLiteral addr)

/-- Sees to it that a block starts at an address, and records where control comes from. A branch out
of a block that this divides now stands in its second part. -/
def define (d : Draft) (addr : Nat) (predecessor : Option Nat) : Draft :=
  if d.has addr then d.link addr predecessor
  else
    match d.blocks.find? (·.contains addr) with
    | some head =>
      (d.divide head addr).link addr
        (predecessor.map fun p => if p == head.entry then addr else p)
    | none => { d with blocks := d.blocks ++ [Block.opened addr] }.link addr predecessor

/-- Reaching the entry of another block closes an open one. -/
def enter (d : Draft) (current addr : Nat) : Draft × Nat :=
  if d.has addr && addr != current then
    (d.update current fun b =>
      if b.exit.isNone then { b with exit := some addr, trueTarget := some addr } else b, addr)
  else (d, current)

/-- The scripts that an instruction may go on in; their names are read as UTF-8. -/
def procedureNames (i : Instruction) : List String :=
  let text (raw : List UInt8) : String := String.ofList (Charset.Utf8.decode raw)
  i.operands.flatMap fun
    | .bytes raw => [text raw]
    | .options choices => choices.map fun o => text o.target
    | _ => []

/-- What an instruction of the block at `current` adds to the graph. -/
def leave (d : Draft) (current : Nat) (i : Instruction) : Draft :=
  if i.mnemonic.isConditional then
    match (i.int? 2).bind fun rel => addressOfInt? (i.next + rel) with
    | none => d.report .warn ("malformed branch at " ++ Numeral.hexLiteral i.addr)
    | some target =>
      let closed := d.update current fun b =>
        { b with kind := .conditional, exit := some i.next, trueTarget := some i.next,
                 falseTarget := some target }
      (closed.define i.next (some current)).define target (some current)
  else if i.mnemonic.isJump then
    match (i.int? 0).bind addressOfInt? with
    | none => d.report .warn ("malformed jump at " ++ Numeral.hexLiteral i.addr)
    | some target =>
      let closed := d.update current fun b =>
        { b with kind := .jump, exit := some i.next, trueTarget := some target }
      (closed.define target (some current)).define i.next none
  else if i.mnemonic.isProcedureJump then
    let closed := d.update current fun b =>
      { b with kind := .procedure, exit := some i.next,
               procedures := b.procedures ++ procedureNames i }
    closed.define i.next none
  else if i.mnemonic.isReturn then
    let closed := d.update current fun b => { b with kind := .leave, exit := some i.next }
    closed.define i.next none
  else if i.mnemonic == .endOfStream then
    d.update current fun b => if b.exit.isNone then { b with exit := some i.addr } else b
  else d

/-- One instruction: `current` is the entry of the block it is in. -/
def step (state : Draft × Nat) (i : Instruction) : Draft × Nat :=
  let (d, current) := state.1.enter state.2 i.addr
  (d.leave current i, current)

/-- The draft after all instructions. -/
def ofInstructions (instructions : List Instruction) : Draft :=
  let start := (instructions.head?.map (·.addr)).getD 0
  (instructions.foldl step (define ⟨[], []⟩ start none, start)).1

/-- The graph of a draft. -/
def finish (d : Draft) : BlockGraph :=
  ⟨(d.blocks.filter fun b => !b.isEmpty).mergeSort fun a b => a.entry ≤ b.entry⟩

/-- What is to be said about the blocks that never closed. -/
def dropRecords (d : Draft) : List Record :=
  (d.blocks.filter (·.exit.isNone)).map fun b =>
    ⟨.warn, "dropping unterminated block at " ++ Numeral.hexLiteral b.entry⟩

end Draft

/-- The block graph of a script. Branches with malformed operands are read as straight code. -/
def build (instructions : List Instruction) : BlockGraph :=
  (Draft.ofInstructions instructions).finish

/-- The reports of building the graph. -/
def buildRecords (instructions : List Instruction) : List Record :=
  let draft := Draft.ofInstructions instructions
  draft.records ++ draft.dropRecords ++
    [⟨.debug, "built " ++ toString draft.finish.blocks.length ++ " basic blocks"⟩]

end Rio.BlockGraph
