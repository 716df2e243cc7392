import Rio.Bytecode.Instruction

/-!
# Basic blocks

A script falls into blocks of instructions that run one after another. How control leaves a block
and where it can go are recorded with it.
-/

namespace Rio

/-- How control leaves a block. -/
inductive BlockKind where
  /-- It goes on with the next block. -/
  | linear
  | conditional
  | jump
  /-- It goes on in another script. -/
  | procedure
  /-- It leaves the script. -/
  | leave
deriving Repr, DecidableEq

/-- The name of a kind of block. -/
def BlockKind.name : BlockKind → String
  | linear => "linear"
  | conditional => "conditional"
  | jump => "jump"
  | procedure => "proc_jump"
  | leave => "return"

/-- A block of instructions from `entry` up to, not including, `exit`. A block without an exit is
still open. -/
structure Block where
  entry : Nat
  exit : Option Nat
  kind : BlockKind
  /-- The next block, the branch taken, or the goal of the jump. -/
  trueTarget : Option Nat
  /-- Where a branch goes if its comparison fails. -/
  falseTarget : Option Nat
  /-- The scripts that control may go on in. -/
  procedures : List String
  /-- The entries of the blocks that branch here. -/
  predecessors : List Nat
deriving Repr, DecidableEq

namespace Block

/-- A block that has just been found. -/
def opened (entry : Nat) : Block :=
  ⟨entry, none, .linear, none, none, [], []⟩

/-- Whether an address lies in a closed block. -/
def contains (b : Block) (addr : Nat) : Bool :=
  match b.exit with
  | some exit => b.entry ≤ addr && addr < exit
  | none => false

/-- The number of bytes in a block. -/
def size (b : Block) : Nat :=
  match b.exit with
  | some exit => exit - b.entry
  | none => 0

/-- A block without bytes. -/
def isEmpty (b : Block) : Bool :=
  b.size == 0

/-- The instructions of a block from an address on. -/
def instructionsFrom (b : Block) (instructions : List Instruction) (addr : Nat) :
    List Instruction :=
  match b.exit with
  | some exit =>
    (instructions.dropWhile fun i => i.addr < max addr b.entry).takeWhile fun i => i.addr < exit
  | none => []

/-- The instructions of a block. -/
def instructions (b : Block) (instructions : List Instruction) : List Instruction :=
  b.instructionsFrom instructions b.entry

/-- The instructions of a block after its first. -/
def laterInstructions (b : Block) (instructions : List Instruction) : List Instruction :=
  (b.instructions instructions).drop 1

end Block

/-- The blocks of a script by increasing entry. -/
structure BlockGraph where
  blocks : List Block
deriving Repr, DecidableEq

namespace BlockGraph

/-- The block that starts at an address. -/
def blockAt? (g : BlockGraph) (entry : Nat) : Option Block :=
  g.blocks.find? (·.entry == entry)

/-- The block that an address lies in. -/
def blockContaining? (g : BlockGraph) (addr : Nat) : Option Block :=
  (g.blocks.filter (·.entry ≤ addr)).getLast?.filter (·.contains addr)

end BlockGraph

end Rio
