import Rio.Proofs.Bytecode.Addresses

/-!
# The operands of decoded instructions

A decoded instruction has the operands that its operation calls for: what is read from a row of
fields is a number or a string for each field but padding. For the operations that steer a run,
`operands?` says which these are, and `decode_kinds` that they are there:

> every branch, jump, goto and pause of a decoded script has exactly its operands, each of its kind.

Bytes that do not suffice for an operation never become one; they are decoded as an invalid
instruction. With or without names, `decode_namesScripts` holds of the instructions that lead to
other scripts:

> a `goto` has the one string, and a menu the one list of choices, by which it names them.
-/

namespace Rio

/-- The kinds of operands that fields have. -/
inductive OperandKind where
  | number
  | string
deriving Repr, DecidableEq

/-- The kind of an operand that comes from a field as it is. -/
def Operand.kind? : Operand → Option OperandKind
  | int _ => some .number
  | bytes _ => some .string
  | transition _ | options _ => none

/-- The operands of the operations that steer a run, the selector of a branch left out. -/
def Mnemonic.operands? (m : Mnemonic) : Option (List OperandKind) :=
  if m.isConditional then some [.number, .number, .number]
  else
    match m with
    | .jmpOffset | .sleep => some [.number]
    | .goto => some [.string]
    | _ => none

/-- The instructions that lead to other scripts have one operand, which names them: the string of a
`goto`, and the choices of a menu. -/
def Instruction.NamesScripts (i : Instruction) : Prop :=
  (i.mnemonic = .goto → ∃ raw, i.operands = [.bytes raw]) ∧
    (i.mnemonic = .option → ∃ choices, i.operands = [.options choices])

end Rio

namespace Rio.Bytecode

/-- The kind of the operand of a field; padding has none. -/
def Field.kind? : Field → Option OperandKind
  | .u8 | .i8 | .u16 | .i16 | .i32 => some .number
  | .pad => none
  | .cstr => some .string

/-- The kinds of the operands of an operation that reads nothing more into its fields. -/
def Layout.kinds : Layout → List OperandKind
  | .bare => []
  | .fields row => row.filterMap Field.kind?

theorem readField_kinds {field : Field} {bytes rest : List UInt8} {operands : List Operand}
    (h : readField field bytes = some (operands, rest)) :
    operands.map Operand.kind? = (field.kind?.toList).map some := by
  cases field <;>
    · simp only [readField, Option.map_eq_some_iff, Prod.mk.injEq] at h
      obtain ⟨-, -, rfl, -⟩ := h
      rfl

/-- A row of fields gives an operand for each field that has one. -/
theorem readFields_kinds {row : List Field} {bytes rest : List UInt8} {operands : List Operand}
    (h : readFields row bytes = some (operands, rest)) :
    operands.map Operand.kind? = (row.filterMap Field.kind?).map some := by
  induction row generalizing bytes rest operands with
  | nil =>
    simp only [readFields, Option.some.injEq, Prod.mk.injEq] at h
    rw [← h.1]
    rfl
  | cons field row ih =>
    simp only [readFields, Option.bind_eq_bind, Option.bind_eq_some_iff, Option.pure_def,
      Option.some.injEq, Prod.mk.injEq] at h
    obtain ⟨⟨first, middle⟩, hfirst, ⟨others, last⟩, hothers, rfl, -⟩ := h
    rw [List.map_append, readField_kinds hfirst, ih hothers, ← List.map_append]
    cases hkind : field.kind? with
    | none => rw [List.filterMap_cons_none hkind]; rfl
    | some kind => rw [List.filterMap_cons_some hkind]; rfl

theorem readOperands_kinds {d : Descriptor} (hfamily : d.family ≠ some .options)
    {bytes rest : List UInt8} {operands : List Operand}
    (h : readOperands d bytes = some (operands, rest)) :
    operands.map Operand.kind? = d.layout.kinds.map some := by
  unfold readOperands at h
  split at h
  · next hlayout =>
    simp only [Option.some.injEq, Prod.mk.injEq] at h
    rw [← h.1, hlayout]
    rfl
  · next hoptions => exact absurd hoptions hfamily
  · next hlayout _ =>
    rw [hlayout]
    exact readFields_kinds h

/-! ## Decoded instructions -/

/-- The operations that steer a run read their operands and nothing more into them; all branches
have a selector before them. -/
theorem descriptor?_kinds {version : Version} {op : UInt8} {d : Descriptor}
    (hd : version.descriptor? op = some d) :
    (∀ kinds ∈ d.mnemonic.operands?, d.family = none ∧ d.layout.kinds = kinds) ∧
      (d.family = some .branch →
        d.layout.kinds = [.number, .number, .number, .number] ∧ d.mnemonic.operands? = none) := by
  have hall : ∀ e ∈ version.overlay ++ baseEntries,
      (∀ kinds ∈ e.2.mnemonic.operands?, e.2.family = none ∧ e.2.layout.kinds = kinds) ∧
        (e.2.family = some .branch →
          e.2.layout.kinds = [.number, .number, .number, .number] ∧
            e.2.mnemonic.operands? = none) := by
    cases version <;> decide
  exact hall _ (mem_of_descriptor? hd)

/-- Naming the selector of a branch takes it from the operands and leaves the others. -/
theorem nameOperands_kinds {version : Version} {op : UInt8} {d : Descriptor}
    (hd : version.descriptor? op = some d) {bytes rest : List UInt8} {operands : List Operand}
    (h : readOperands d bytes = some (operands, rest)) {kinds : List OperandKind}
    (hkinds : (nameOperands d operands).1.operands? = some kinds) :
    (nameOperands d operands).2.map Operand.kind? = kinds.map some := by
  obtain ⟨hplain, hbranch⟩ := descriptor?_kinds hd
  -- without a selector the operands are those of the fields
  have hsame : d.mnemonic.operands? = some kinds →
      operands.map Operand.kind? = kinds.map some := by
    intro hm
    obtain ⟨hfamily, hlayout⟩ := hplain kinds hm
    rw [← hlayout]
    exact readOperands_kinds (by rw [hfamily]; simp) h
  unfold nameOperands at hkinds ⊢
  split at hkinds
  · next selector others hlayout hfamily =>
    have hread := readOperands_kinds (by rw [hfamily]; simp) h
    obtain ⟨hrow, hnone⟩ := hbranch hfamily
    rw [hrow] at hread
    split at hkinds
    · next m hm =>
      have hall : ∀ m ∈ branchMembers, ∀ kinds ∈ m.operands?,
          kinds = [.number, .number, .number] := by decide
      rw [hall m (mem_of_entryAt? hm) kinds hkinds]
      exact (List.cons.inj hread).2
    · rw [hnone] at hkinds
      exact absurd hkinds (by simp)
  · split at hkinds
    · next m hm =>
      have hall : ∀ m ∈ assignMembers, m.operands? = none := by decide
      rw [hall m (mem_of_entryAt? hm)] at hkinds
      exact absurd hkinds (by simp)
    · exact hsame hkinds
  · split at hkinds
    · next hfamily _ _ _ =>
      have := (hplain kinds hkinds).1
      rw [hfamily] at this
      exact absurd this (by simp)
    · exact hsame hkinds
  · exact hsame hkinds

/-- An instruction just read has the operands that it calls for; no marker calls for any. -/
theorem readInstruction_kinds {version : Version} {addr : Nat} {op : UInt8} {bytes : List UInt8}
    {i : Instruction} (hi : i ∈ (readInstruction version true addr op bytes).1)
    {kinds : List OperandKind} (hkinds : i.mnemonic.operands? = some kinds) :
    i.operands.map Operand.kind? = kinds.map some := by
  unfold readInstruction at hi
  split at hi
  · rw [List.mem_singleton.mp hi] at hkinds
    cases hkinds
  · next d hd =>
    split at hi
    · rw [List.mem_singleton.mp hi] at hkinds
      cases hkinds
    · next operands rest hread =>
      dsimp only at hi
      split at hi
      · rcases List.mem_cons.mp hi with rfl | hmarker
        · exact nameOperands_kinds hd hread hkinds
        · rw [List.mem_singleton.mp hmarker] at hkinds
          cases hkinds
      · rw [List.mem_singleton.mp hi] at hkinds ⊢
        exact nameOperands_kinds hd hread hkinds

theorem decodeFrom_kinds (version : Version) (addr : Nat) (bytes : List UInt8) :
    ∀ i ∈ decodeFrom version true addr bytes, ∀ kinds ∈ i.mnemonic.operands?,
      i.operands.map Operand.kind? = kinds.map some := by
  fun_induction decodeFrom version true addr bytes with
  | case1 addr =>
    intro i hi kinds hkinds
    rw [List.mem_singleton.mp hi] at hkinds
    cases hkinds
  | case2 addr op bytes read _ ih =>
    intro i hi kinds hkinds
    rcases List.mem_append.mp hi with hi | hi
    · exact readInstruction_kinds hi hkinds
    · exact ih i hi kinds hkinds

/-- The instructions of a script have the operands that they call for. -/
theorem decode_kinds (version : Version) (script : List UInt8) :
    ∀ i ∈ decode version true script, ∀ kinds ∈ i.mnemonic.operands?,
      i.operands.map Operand.kind? = kinds.map some :=
  decodeFrom_kinds version 0 script

end Rio.Bytecode

namespace Rio

/-! ## Reading the operands -/

/-- An operand that is a number by its kind. -/
theorem Operand.exists_of_kind?_number {o : Operand} (h : o.kind? = some .number) :
    ∃ n, o = .int n := by
  cases o with
  | int n => exact ⟨n, rfl⟩
  | bytes _ | transition _ | options _ => exact absurd h (by simp [kind?])

theorem Operand.exists_of_kind?_string {o : Operand} (h : o.kind? = some .string) :
    ∃ raw, o = .bytes raw := by
  cases o with
  | bytes raw => exact ⟨raw, rfl⟩
  | int _ | transition _ | options _ => exact absurd h (by simp [kind?])

/-- The number at a place that calls for one. -/
theorem Instruction.exists_int? {i : Instruction} {kinds : List OperandKind} {k : Nat}
    (h : i.operands.map Operand.kind? = kinds.map some) (hk : kinds[k]? = some .number) :
    ∃ n, i.int? k = some n := by
  have hmap := congrArg (fun row => row[k]?) h
  simp only [List.getElem?_map, hk, Option.map_some, Option.map_eq_some_iff] at hmap
  obtain ⟨o, ho, hkind⟩ := hmap
  obtain ⟨n, rfl⟩ := Operand.exists_of_kind?_number hkind
  exact ⟨n, by rw [int?, ho]⟩

theorem Instruction.exists_bytes? {i : Instruction} {kinds : List OperandKind} {k : Nat}
    (h : i.operands.map Operand.kind? = kinds.map some) (hk : kinds[k]? = some .string) :
    ∃ raw, i.bytes? k = some raw := by
  have hmap := congrArg (fun row => row[k]?) h
  simp only [List.getElem?_map, hk, Option.map_some, Option.map_eq_some_iff] at hmap
  obtain ⟨o, ho, hkind⟩ := hmap
  obtain ⟨raw, rfl⟩ := Operand.exists_of_kind?_string hkind
  exact ⟨raw, by rw [bytes?, ho]⟩

end Rio

namespace Rio.Bytecode

/-! ## Instructions that lead to other scripts -/

/-- A `goto` is read as a string, and a menu as its choices. -/
theorem descriptor?_scripts {version : Version} {op : UInt8} {d : Descriptor}
    (hd : version.descriptor? op = some d) :
    (d.mnemonic = .goto → d.layout = .fields [.cstr] ∧ d.family = none) ∧
      (d.mnemonic = .option → d.layout = .fields [.u16] ∧ d.family = some .options) := by
  have hall : ∀ e ∈ version.overlay ++ baseEntries,
      (e.2.mnemonic = .goto → e.2.layout = .fields [.cstr] ∧ e.2.family = none) ∧
        (e.2.mnemonic = .option → e.2.layout = .fields [.u16] ∧ e.2.family = some .options) := by
    cases version <;> decide
  exact hall _ (mem_of_descriptor? hd)

/-- Neither has a selector or a code, so both keep their operands. -/
theorem nameOperands_of_isProcedureJump {version : Version} {op : UInt8} {d : Descriptor}
    (hd : version.descriptor? op = some d) {operands : List Operand}
    (h : (nameOperands d operands).1.isProcedureJump) :
    nameOperands d operands = (d.mnemonic, operands) := by
  rcases nameOperands_mnemonic d operands with hm | hm
  · obtain ⟨hgoto, hoption⟩ := descriptor?_scripts hd
    have hfamily : d.family = none ∨ d.family = some .options := by
      rw [hm] at h
      cases hd' : d.mnemonic with
      | goto => exact Or.inl (hgoto hd').2
      | option => exact Or.inr (hoption hd').2
      | _ => rw [hd'] at h; cases h
    unfold nameOperands
    split
    · next hbranch => simp [hbranch] at hfamily
    · next hassign => simp [hassign] at hfamily
    · next htransition => simp [htransition] at hfamily
    · rfl
  · have hall : ∀ m ∈ branchMembers ++ assignMembers, ¬ m.isProcedureJump := by decide
    exact absurd h (hall _ hm)

theorem readOperands_namesScripts {version : Version} {op : UInt8} {d : Descriptor}
    (hd : version.descriptor? op = some d) {bytes rest : List UInt8} {operands : List Operand}
    (h : readOperands d bytes = some (operands, rest)) (addr len : Nat) :
    Instruction.NamesScripts ⟨addr, len, some op, d.mnemonic, operands⟩ := by
  obtain ⟨hgoto, hoption⟩ := descriptor?_scripts hd
  constructor
  · intro hm
    obtain ⟨hlayout, hfamily⟩ := hgoto hm
    have hkinds := readOperands_kinds (by rw [hfamily]; simp) h
    rw [hlayout] at hkinds
    obtain ⟨operand, rfl, hkind⟩ := List.map_eq_singleton_iff.mp hkinds
    obtain ⟨raw, rfl⟩ := Operand.exists_of_kind?_string hkind
    exact ⟨raw, rfl⟩
  · intro hm
    obtain ⟨hlayout, hfamily⟩ := hoption hm
    unfold readOperands at h
    rw [hlayout, hfamily] at h
    simp only [Option.bind_eq_bind, Option.bind_eq_some_iff, Option.pure_def, Option.some.injEq,
      Prod.mk.injEq] at h
    obtain ⟨-, -, ⟨choices, -⟩, -, rfl, -⟩ := h
    exact ⟨choices, rfl⟩

/-- Whether or not names are resolved, an instruction just read names scripts by its operand. -/
theorem readInstruction_namesScripts {version : Version} {naming : Bool} {addr : Nat} {op : UInt8}
    {bytes : List UInt8} :
    ∀ i ∈ (readInstruction version naming addr op bytes).1, i.NamesScripts := by
  have hother : ∀ {i : Instruction}, i.mnemonic.isProcedureJump = false → i.NamesScripts := fun h =>
    ⟨fun hm => (by rw [hm] at h; cases h), fun hm => (by rw [hm] at h; cases h)⟩
  intro i hi
  unfold readInstruction at hi
  split at hi
  · exact List.mem_singleton.mp hi ▸ hother rfl
  · next d hd =>
    split at hi
    · exact List.mem_singleton.mp hi ▸ hother rfl
    · next operands rest hread =>
      -- naming the operands leaves those of a procedure jump as they were read
      have hnamed : ∀ len, Instruction.NamesScripts ⟨addr, len, some op,
          (if naming then nameOperands d operands else (d.mnemonic, operands)).1,
          (if naming then nameOperands d operands else (d.mnemonic, operands)).2⟩ := by
        intro len
        cases naming with
        | false => exact readOperands_namesScripts hd hread addr len
        | true =>
          rw [if_pos rfl]
          by_cases hm : (nameOperands d operands).1.isProcedureJump
          · rw [nameOperands_of_isProcedureJump hd hm]
            exact readOperands_namesScripts hd hread addr len
          · exact hother (Bool.not_eq_true _ ▸ hm)
      dsimp only at hi
      split at hi
      · rcases List.mem_cons.mp hi with rfl | hmarker
        · exact hnamed _
        · exact List.mem_singleton.mp hmarker ▸ hother rfl
      · exact List.mem_singleton.mp hi ▸ hnamed _

theorem decodeFrom_namesScripts (version : Version) (naming : Bool) (addr : Nat)
    (bytes : List UInt8) : ∀ i ∈ decodeFrom version naming addr bytes, i.NamesScripts := by
  fun_induction decodeFrom version naming addr bytes with
  | case1 addr =>
    intro i hi
    rw [List.mem_singleton.mp hi]
    exact ⟨fun hm => (by cases hm), fun hm => (by cases hm)⟩
  | case2 addr op bytes read _ ih =>
    intro i hi
    rcases List.mem_append.mp hi with hi | hi
    · exact readInstruction_namesScripts i hi
    · exact ih i hi

/-- Each `goto` of a script has the string, and each menu the choices, by which it names scripts. -/
theorem decode_namesScripts (version : Version) (naming : Bool) (script : List UInt8) :
    ∀ i ∈ decode version naming script, i.NamesScripts :=
  decodeFrom_namesScripts version naming 0 script

end Rio.Bytecode
