import Rio.BlockGraph.Build

/-!
# What one instruction does to the blocks

Where blocks start and end and how they are left does not depend on who branches to them. The
outline of a block forgets its predecessors, and each operation on a draft is here restated on
outlines alone:

> `define_outline`: seeing to a block at an address leaves the outlines as they are, divides one, or
> adds an open one;
> `leave_of_flow`: an instruction that ends a block closes the present one and then sees to a block
> where it ends and where it leads;
> `leave_of_none`: no other instruction changes an outline, but for the end of the script.

`Flow` is what an instruction says about the control flow, read off once; later proofs never look at
mnemonics again.
-/

namespace Rio

/-! ## Instructions that end a block -/

/-- How an instruction passes on control, if not to the next one. -/
inductive Flow where
  | branch (target : Nat)
  | jump (target : Nat)
  | procedure (names : List String)
  | leave
deriving Repr, DecidableEq

/-- The address in the script that is branched or jumped to. -/
def Flow.target? : Flow → Option Nat
  | branch target | jump target => some target
  | procedure _ | leave => none

/-- The script that a string names. Names are read as UTF-8, in whatever encoding the texts are. -/
def scriptName (raw : List UInt8) : String :=
  String.ofList (Charset.Utf8.decode raw)

/-- The scripts that an operand names: the one of a string, or those that the choices of a menu lead
to, in their order. -/
def Operand.procedures : Operand → List String
  | bytes raw => [scriptName raw]
  | options choices => choices.map fun choice => scriptName choice.target
  | int _ | transition _ => []

/-- The scripts that an instruction names. -/
def Instruction.procedures (i : Instruction) : List String :=
  i.operands.flatMap Operand.procedures

/-- The builder collects these names. -/
theorem procedureNames_eq (i : Instruction) :
    BlockGraph.Draft.procedureNames i = i.procedures := by
  refine congrArg (fun f => i.operands.flatMap f) (funext fun operand => ?_)
  cases operand <;> rfl

/-- How an instruction passes on control. Branches and jumps with malformed operands do not. -/
def Instruction.flow? (i : Instruction) : Option Flow :=
  if i.mnemonic.isConditional then
    ((i.int? 2).bind fun rel => addressOfInt? (i.next + rel)).map Flow.branch
  else if i.mnemonic.isJump then ((i.int? 0).bind addressOfInt?).map Flow.jump
  else if i.mnemonic.isProcedureJump then some (.procedure i.procedures)
  else if i.mnemonic.isReturn then some .leave
  else none

/-- The blocks that an instruction sees to, in this order: where it ends and where it leads. -/
def Flow.opens (next : Nat) : Flow → List Nat
  | branch target => [next, target]
  | jump target => [target, next]
  | procedure _ | leave => [next]

namespace Block

/-- A block without its predecessors. -/
def outline (b : Block) : Block :=
  { b with predecessors := [] }

@[simp] theorem outline_entry (b : Block) : b.outline.entry = b.entry := rfl

/-- A block whose outline is open has nothing but predecessors. -/
theorem of_outline_eq_opened {b : Block} {entry : Nat} (h : b.outline = opened entry) :
    ∃ predecessors, b = { opened entry with predecessors } := by
  refine ⟨b.predecessors, ?_⟩
  rw [← h]
  rfl

/-- The outline of a block whose last instruction passes on control in a given way, or goes on with
the next block. -/
def ending (entry exit : Nat) : Option Flow → Block
  | none => ⟨entry, some exit, .linear, some exit, none, [], []⟩
  | some (.branch target) => ⟨entry, some exit, .conditional, some exit, some target, [], []⟩
  | some (.jump target) => ⟨entry, some exit, .jump, some target, none, [], []⟩
  | some (.procedure names) => ⟨entry, some exit, .procedure, none, none, names, []⟩
  | some .leave => ⟨entry, some exit, .leave, none, none, [], []⟩

@[simp] theorem ending_entry (entry exit : Nat) (f : Option Flow) :
    (ending entry exit f).entry = entry := by
  rcases f with _ | _ | _ | _ | _ <;> rfl

@[simp] theorem ending_exit (entry exit : Nat) (f : Option Flow) :
    (ending entry exit f).exit = some exit := by
  rcases f with _ | _ | _ | _ | _ <;> rfl

/-- The later part of a divided block is left as the whole block was. -/
theorem ending_from (entry addr exit : Nat) (f : Option Flow) :
    { ending entry exit f with entry := addr } = ending addr exit f := by
  rcases f with _ | _ | _ | _ | _ <;> rfl

/-- The earlier part of a divided block. -/
def shorten (addr : Nat) (b : Block) : Block :=
  { b with exit := some addr, kind := .linear, trueTarget := some addr, falseTarget := none,
           procedures := [] }

theorem shorten_ending (entry addr exit : Nat) (f : Option Flow) :
    shorten addr (ending entry exit f) = ending entry addr none := by
  rcases f with _ | _ | _ | _ | _ <;> rfl

end Block

namespace Flow

/-- What an instruction writes into the block that it ends. -/
def close (next : Nat) : Flow → Block → Block
  | branch target, b =>
    { b with kind := .conditional, exit := some next, trueTarget := some next,
             falseTarget := some target }
  | jump target, b => { b with kind := .jump, exit := some next, trueTarget := some target }
  | procedure names, b =>
    { b with kind := .procedure, exit := some next, procedures := b.procedures ++ names }
  | leave, b => { b with kind := .leave, exit := some next }

/-- How the block that an instruction ends is connected. -/
def connect (d : BlockGraph.Draft) (current next : Nat) : Flow → BlockGraph.Draft
  | branch target => (d.define next (some current)).define target (some current)
  | jump target => (d.define target (some current)).define next none
  | procedure _ | leave => d.define next none

/-- Closing an open block gives it the outline that the instruction says. -/
theorem close_outline (f : Flow) (next : Nat) {b : Block} (h : b.outline = Block.opened b.entry) :
    (f.close next b).outline = Block.ending b.entry next (some f) := by
  obtain ⟨predecessors, hb⟩ := Block.of_outline_eq_opened h
  rw [hb]
  cases f <;> rfl

end Flow

end Rio

namespace Rio.BlockGraph

/-! ## Outlines of a draft -/

/-- Blocks after a change to those that start at an address. -/
def changeAt (blocks : List Block) (entry : Nat) (change : Block → Block) : List Block :=
  blocks.map fun b => if b.entry == entry then change b else b

/-- Outlines after seeing to a block at an address. -/
def defineIn (blocks : List Block) (addr : Nat) : List Block :=
  if blocks.any (·.entry == addr) then blocks
  else
    match blocks.find? (·.contains addr) with
    | some head => changeAt blocks head.entry (Block.shorten addr) ++ [{ head with entry := addr }]
    | none => blocks ++ [Block.opened addr]

namespace Draft

/-- The outlines of the blocks found so far. -/
def outline (d : Draft) : List Block :=
  d.blocks.map Block.outline

theorem has_eq (d : Draft) (entry : Nat) : d.has entry = d.outline.any (·.entry == entry) := by
  unfold has outline
  rw [List.any_map]
  rfl

theorem outline_report (d : Draft) (severity : Severity) (message : String) :
    (d.report severity message).outline = d.outline := rfl

/-- A change that says the same of a block and of its outline. -/
theorem outline_update (d : Draft) (entry : Nat) (change change' : Block → Block)
    (h : ∀ b ∈ d.blocks, b.entry = entry → (change b).outline = change' b.outline) :
    (d.update entry change).outline = changeAt d.outline entry change' := by
  unfold outline update changeAt
  rw [List.map_map, List.map_map]
  apply List.map_congr_left
  intro b hb
  rw [Function.comp_apply, Function.comp_apply, Block.outline_entry]
  by_cases he : b.entry = entry
  · rw [if_pos (beq_iff_eq.mpr he), if_pos (beq_iff_eq.mpr he)]
    exact h b hb he
  · have hne : ¬(b.entry == entry) = true := fun h' => he (beq_iff_eq.mp h')
    rw [if_neg hne, if_neg hne]

theorem changeAt_self (blocks : List Block) (entry : Nat) : changeAt blocks entry id = blocks := by
  unfold changeAt
  simp

theorem outline_link (d : Draft) (entry : Nat) (predecessor : Option Nat) :
    (d.link entry predecessor).outline = d.outline := by
  cases predecessor with
  | none => rfl
  | some p =>
    have h := outline_update d entry
      (fun b => { b with predecessors := b.predecessors ++ [p] }) id (fun b _ _ => rfl)
    rw [link, h, changeAt_self]

theorem outline_divide (d : Draft) (head : Block) (addr : Nat) :
    (d.divide head addr).outline
      = changeAt d.outline head.entry (Block.shorten addr)
        ++ [{ head.outline with entry := addr }] := by
  -- redirecting edges changes predecessors and nothing else
  have hredirect : ∀ redirect : Block → Block, (∀ b, (redirect b).outline = b.outline) →
      ∀ blocks : List Block, (blocks.map redirect).map Block.outline
        = blocks.map Block.outline := by
    intro redirect hr blocks
    rw [List.map_map]
    exact List.map_congr_left fun b _ => hr b
  have hshort := outline_update d head.entry (Block.shorten addr) (Block.shorten addr)
    (fun b _ _ => rfl)
  unfold divide
  rw [outline_report]
  unfold outline at hshort ⊢
  rw [List.map_append, hredirect]
  · exact congrArg (· ++ _) hshort
  · intro b
    split <;> rfl

/-- Seeing to a block at an address, on outlines. -/
theorem define_outline (d : Draft) (addr : Nat) (predecessor : Option Nat) :
    (d.define addr predecessor).outline = defineIn d.outline addr := by
  unfold define defineIn
  rw [has_eq]
  split
  · exact outline_link ..
  · have hfind : d.outline.find? (·.contains addr)
        = (d.blocks.find? (·.contains addr)).map Block.outline := by
      unfold outline
      rw [List.find?_map]
      rfl
    rw [hfind]
    cases d.blocks.find? (·.contains addr) with
    | none =>
      rw [Option.map_none]
      dsimp only
      rw [outline_link]
      unfold outline
      rw [List.map_append]
      rfl
    | some head =>
      rw [Option.map_some]
      dsimp only
      rw [outline_link, outline_divide]
      rfl

/-! ## One instruction -/

/-- An instruction that ends a block closes the present one and connects it. -/
theorem leave_eq_connect {d : Draft} {current : Nat} {i : Instruction} {f : Flow}
    (hf : i.flow? = some f) :
    d.leave current i = f.connect (d.update current (f.close i.next)) current i.next := by
  unfold Instruction.flow? at hf
  unfold leave
  by_cases hc : i.mnemonic.isConditional
  · rw [if_pos hc] at hf ⊢
    obtain ⟨target, ht, rfl⟩ := Option.map_eq_some_iff.mp hf
    rw [ht]
    rfl
  rw [if_neg hc] at hf ⊢
  by_cases hj : i.mnemonic.isJump
  · rw [if_pos hj] at hf ⊢
    obtain ⟨target, ht, rfl⟩ := Option.map_eq_some_iff.mp hf
    rw [ht]
    rfl
  rw [if_neg hj] at hf ⊢
  by_cases hp : i.mnemonic.isProcedureJump
  · rw [if_pos hp] at hf ⊢
    obtain rfl := Option.some.inj hf
    rw [procedureNames_eq]
    rfl
  rw [if_neg hp] at hf ⊢
  by_cases hr : i.mnemonic.isReturn
  · rw [if_pos hr] at hf ⊢
    obtain rfl := Option.some.inj hf
    rfl
  · rw [if_neg hr] at hf
    cases hf

/-- No other instruction changes a block, but for the end of the script. -/
theorem leave_blocks_of_none {d : Draft} {current : Nat} {i : Instruction} (hf : i.flow? = none)
    (hend : i.mnemonic ≠ .endOfStream) : (d.leave current i).blocks = d.blocks := by
  unfold Instruction.flow? at hf
  unfold leave
  by_cases hc : i.mnemonic.isConditional
  · rw [if_pos hc] at hf ⊢
    rw [Option.map_eq_none_iff.mp hf]
    rfl
  rw [if_neg hc] at hf ⊢
  by_cases hj : i.mnemonic.isJump
  · rw [if_pos hj] at hf ⊢
    rw [Option.map_eq_none_iff.mp hf]
    rfl
  rw [if_neg hj] at hf ⊢
  by_cases hp : i.mnemonic.isProcedureJump
  · rw [if_pos hp] at hf
    cases hf
  rw [if_neg hp] at hf ⊢
  by_cases hr : i.mnemonic.isReturn
  · rw [if_pos hr] at hf
    cases hf
  rw [if_neg hr, if_neg (by simpa using hend)]

/-- Closing the present block, which is open. -/
theorem outline_close {d : Draft} {current : Nat} (f : Flow) (next : Nat)
    (hopen : ∀ b ∈ d.blocks, b.entry = current → b.outline = Block.opened current) :
    (d.update current (f.close next)).outline
      = changeAt d.outline current fun _ => Block.ending current next (some f) := by
  apply outline_update
  intro b hb he
  subst he
  exact f.close_outline next (hopen b hb rfl)

/-- Connecting a block sees to the blocks where the instruction ends and where it leads. -/
theorem connect_outline (d : Draft) (current next : Nat) (f : Flow) :
    (f.connect d current next).outline = (f.opens next).foldl defineIn d.outline := by
  cases f <;>
    simp only [Flow.connect, Flow.opens, List.foldl_cons, List.foldl_nil, define_outline]

/-- On outlines, an instruction that ends a block closes the present one, which is open, and sees
to the blocks where it ends and where it leads. -/
theorem leave_of_flow {d : Draft} {current : Nat} {i : Instruction} {f : Flow}
    (hf : i.flow? = some f)
    (hopen : ∀ b ∈ d.blocks, b.entry = current → b.outline = Block.opened current) :
    (d.leave current i).outline
      = (f.opens i.next).foldl defineIn
          (changeAt d.outline current fun _ => Block.ending current i.next (some f)) := by
  rw [leave_eq_connect hf, connect_outline, outline_close f i.next hopen]

theorem leave_of_none {d : Draft} {current : Nat} {i : Instruction} (hf : i.flow? = none)
    (hend : i.mnemonic ≠ .endOfStream) : (d.leave current i).outline = d.outline :=
  congrArg (List.map Block.outline) (leave_blocks_of_none hf hend)

/-- The end of the script closes the present block, which is open. -/
theorem leave_end {d : Draft} {current addr : Nat}
    (hopen : ∀ b ∈ d.blocks, b.entry = current → b.outline = Block.opened current) :
    (d.leave current (.marker addr .endOfStream)).outline
      = changeAt d.outline current fun _ =>
          ⟨current, some addr, .linear, none, none, [], []⟩ := by
  apply outline_update
  intro b hb he
  obtain ⟨predecessors, rfl⟩ := Block.of_outline_eq_opened (hopen b hb he)
  rfl

/-- Reaching an address where another block starts closes the present one if it is open. -/
theorem enter_outline_of_open {d : Draft} {current addr : Nat} (hhas : d.has addr = true)
    (hne : addr ≠ current)
    (hopen : ∀ b ∈ d.blocks, b.entry = current → b.outline = Block.opened current) :
    (d.enter current addr).1.outline
        = changeAt d.outline current (fun _ => Block.ending current addr none) ∧
      (d.enter current addr).2 = addr := by
  unfold enter
  rw [hhas, if_pos (by simpa using hne)]
  refine ⟨?_, rfl⟩
  apply outline_update
  intro b hb he
  obtain ⟨predecessors, rfl⟩ := Block.of_outline_eq_opened (hopen b hb he)
  rfl

/-- A block that is closed already stays as it is. -/
theorem enter_outline_of_closed {d : Draft} {current addr : Nat} (hhas : d.has addr = true)
    (hne : addr ≠ current) (hclosed : ∀ b ∈ d.blocks, b.entry = current → b.exit ≠ none) :
    (d.enter current addr).1.outline = d.outline ∧ (d.enter current addr).2 = addr := by
  unfold enter
  rw [hhas, if_pos (by simpa using hne)]
  refine ⟨?_, rfl⟩
  rw [outline_update d current _ id, changeAt_self]
  intro b hb he
  rw [if_neg (by simpa using hclosed b hb he)]
  rfl

/-- Elsewhere the present block goes on. -/
theorem enter_of_stay {d : Draft} {current addr : Nat} (h : d.has addr = true → addr = current) :
    d.enter current addr = (d, current) := by
  unfold enter
  rw [if_neg]
  simpa using h

end Draft

end Rio.BlockGraph
