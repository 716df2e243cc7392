import Rio.Proofs.Bytecode.Accounting
import Rio.Proofs.Screenplay.Frame

/-!
# What reading an instruction needs

Reading looks at the operands of an instruction one by one. `Mnemonic.needs` lists, operation by
operation, which operands these are and what they have to be. The operation tables give every
operation what it needs: `decode_meets` says that

> the operands of a decoded instruction meet every need of its operation.

So a decoded instruction is malformed only by the value of an operand, and there is just one such
value: that of a jump or branch which leads to a negative address
(`ofInstruction_eq_malformed_iff`).
-/

namespace Rio

open Bytecode (Field Descriptor Body Slot)

/-- What reading an instruction asks of its operands. -/
inductive Need where
  | number (k : Nat)
  /-- A number that is not negative. -/
  | natural (k : Nat)
  | string (k : Nat)
  | lastString
  /-- A transition or the code of one. -/
  | method
  | choices
deriving Repr, DecidableEq

/-- Whether the operands of an instruction are as they are needed. Numbers have 32 bits at most. -/
def Need.Met (i : Instruction) : Need → Prop
  | number k => ∃ n, i.int? k = some n ∧ -0x80000000 ≤ n ∧ n < 0x80000000
  | natural k => ∃ n : Nat, i.int? k = some (n : Int)
  | string k => ∃ s, i.bytes? k = some s
  | lastString => ∃ s, i.lastBytes? = some s
  | method => ∃ m, Screenplay.Command.method? i = some m
  | choices => ∃ o, i.options? = some o

/-- What the operation of an instruction needs. -/
def Mnemonic.needs : Mnemonic → List Need
  | .jbe | .jle | .jeq | .jne | .jbt | .jlt | .mov | .add | .sub | .movf | .mod | .bgVp
  | .screenEffect => [.number 0, .number 1, .number 2]
  | .rnd => [.number 0, .number 2]
  | .jmpOffset | .textSizeModifier | .sleep | .seStop | .tint | .tintIo | .layer1Cl => [.number 0]
  | .seFadeout | .weather => [.number 0, .number 1]
  | .bgmStop => [.number 1]
  | .goto | .call | .eventName | .sideImage | .setTransMask => [.string 0]
  | .textN | .textExtend | .video => [.string 1]
  | .textNIo => [.string 2]
  | .textC => [.string 1, .string 2]
  | .voice => [.lastString]
  | .bgm | .bgmNoarg3 | .bgmIo => [.lastString, .number 1]
  | .se | .seNoarg8 | .seIo => [.number 0, .number 1, .number 4, .lastString]
  | .bg | .obj => [.string 5, .number 0, .number 1]
  | .fg => [.string 7, .natural 0, .number 1, .number 2, .number 6]
  | .fgNoarg7 => [.string 6, .natural 0, .number 1, .number 2]
  | .addAnimationKeyFrame => [.number 0, .number 1, .number 2, .number 3, .number 5]
  | .transition | .transitionIo => [.method, .number 1]
  | .option => [.choices]
  | _ => []

/-! ## Rows of fields -/

/-- An operand that stands in a field. -/
def Operand.Fills : Field → Operand → Prop
  | field, int n => field.Holds n
  | .cstr, bytes _ => True
  | _, _ => False

/-- Whether a row of fields without padding gives what is needed. -/
def Need.suits (row : List Field) : Need → Bool
  | number k => row[k]?.any (· != .cstr)
  | natural k => row[k]?.any fun field => field == .u8 || field == .u16
  | string k => row[k]? == some .cstr
  | lastString => row.getLast? == some .cstr
  | method | choices => false

/-- The operand of a field stands where the field does. -/
theorem exists_fills {row : List Field} {operands : List Operand}
    (h : List.Forall₂ Operand.Fills row operands) {k : Nat} {field : Field}
    (hk : row[k]? = some field) : ∃ o, operands[k]? = some o ∧ o.Fills field := by
  induction h generalizing k with
  | nil => exact absurd hk (by simp)
  | @cons f o row operands hfill _ ih =>
    cases k with
    | zero =>
      rw [List.getElem?_cons_zero] at hk ⊢
      obtain rfl := Option.some.inj hk
      exact ⟨o, rfl, hfill⟩
    | succ k =>
      rw [List.getElem?_cons_succ] at hk ⊢
      exact ih hk

theorem Operand.Fills.exists_number {field : Field} {o : Operand} (h : o.Fills field)
    (hfield : field ≠ .cstr) : ∃ n, o = .int n ∧ field.Holds n := by
  cases o with
  | int n => exact ⟨n, rfl, h⟩
  | bytes s => cases field <;> simp_all [Fills]
  | transition t => exact absurd h (by simp [Fills])
  | options choices => exact absurd h (by simp [Fills])

theorem Operand.Fills.exists_string {o : Operand} (h : o.Fills .cstr) : ∃ s, o = .bytes s := by
  cases o with
  | int n => exact absurd h (by simp [Fills, Field.Holds])
  | bytes s => exact ⟨s, rfl⟩
  | transition t => exact absurd h (by simp [Fills])
  | options choices => exact absurd h (by simp [Fills])

/-- Every field of numbers holds 32 bits at most. -/
theorem holds_bounds {field : Field} {n : Int} (h : field.Holds n) :
    -0x80000000 ≤ n ∧ n < 0x80000000 := by
  cases field <;> simp only [Field.Holds] at h <;> omega

/-- A number in a field that is no string. -/
theorem exists_int?_of_fills {row : List Field} {i : Instruction}
    (hfills : List.Forall₂ Operand.Fills row i.operands) {k : Nat} {p : Field → Bool}
    (hk : row[k]?.any p) (hp : p .cstr = false) :
    ∃ field n, p field = true ∧ field.Holds n ∧ i.int? k = some n := by
  obtain ⟨field, hfield, hpf⟩ : ∃ field, row[k]? = some field ∧ p field = true := by
    cases hrow : row[k]? with
    | none => rw [hrow] at hk; cases hk
    | some field => rw [hrow] at hk; exact ⟨field, rfl, hk⟩
  obtain ⟨o, ho, hfill⟩ := exists_fills hfills hfield
  have hne : field ≠ .cstr := by
    rintro rfl
    rw [hp] at hpf
    cases hpf
  obtain ⟨n, rfl, hholds⟩ := hfill.exists_number hne
  exact ⟨field, n, hpf, hholds, by rw [Instruction.int?, ho]⟩

theorem Need.met_of_suits {row : List Field} {i : Instruction}
    (hfills : List.Forall₂ Operand.Fills row i.operands) {need : Need} (h : need.suits row) :
    need.Met i := by
  cases need with
  | number k =>
    obtain ⟨field, n, -, hholds, hn⟩ := exists_int?_of_fills hfills h rfl
    exact ⟨n, hn, holds_bounds hholds⟩
  | natural k =>
    obtain ⟨field, n, hfield, hholds, hn⟩ := exists_int?_of_fills hfills h rfl
    have hnonneg : 0 ≤ n := by
      rcases Bool.or_eq_true_iff.mp hfield with hu | hu <;>
        · rw [beq_iff_eq.mp hu] at hholds
          exact hholds.1
    exact ⟨n.toNat, by rw [hn, Int.toNat_of_nonneg hnonneg]⟩
  | string k =>
    obtain ⟨o, ho, hfill⟩ := exists_fills hfills (beq_iff_eq.mp h)
    obtain ⟨s, rfl⟩ := hfill.exists_string
    exact ⟨s, by rw [Instruction.bytes?, ho]⟩
  | lastString =>
    have hlast : row[row.length - 1]? = some .cstr := by
      rw [← List.getLast?_eq_getElem?]
      exact beq_iff_eq.mp h
    obtain ⟨o, ho, hfill⟩ := exists_fills hfills hlast
    obtain ⟨s, rfl⟩ := hfill.exists_string
    rw [hfills.length_eq, ← List.getLast?_eq_getElem?] at ho
    exact ⟨s, by rw [Instruction.lastBytes?, ho]⟩
  | method => exact absurd h (by simp [suits])
  | choices => exact absurd h (by simp [suits])

end Rio

namespace Rio.Bytecode

/-- The operands of a row stand in its fields, padding left out. -/
theorem RowSpans.fills {row : List Field} {slots : List Slot} {piece rest : List UInt8}
    (h : RowSpans rest row slots piece) :
    List.Forall₂ Operand.Fills (row.filter (· != .pad)) (slots.flatMap Slot.operands) := by
  induction h with
  | nil => exact .nil
  | @cons field row slot slots piece pieces hslot _ ih =>
    rw [List.flatMap_cons]
    have hfits := hslot.1
    cases slot with
    | number n =>
      have hholds : field.Holds n := by cases field <;> exact hfits
      have hne : (field != .pad) = true := by
        cases field with
        | pad => exact absurd hholds (by simp [Field.Holds])
        | _ => rfl
      rw [List.filter_cons, if_pos hne]
      exact .cons hholds ih
    | text s =>
      cases field with
      | cstr => exact .cons trivial ih
      | _ => exact absurd hfits (by simp [Slot.Fits])
    | padding b =>
      cases field with
      | pad => exact ih
      | _ => exact absurd hfits (by simp [Slot.Fits])

/-- Whether an operation, or every member of its family, has the fields that it needs. -/
def Descriptor.suits (d : Descriptor) : Bool :=
  let row := d.layout.row.filter (· != .pad)
  match d.family with
  | none => d.mnemonic.needs.all (·.suits row)
  | some .branch =>
    d.mnemonic.needs.isEmpty && branchMembers.all fun m => m.needs.all (·.suits row.tail)
  | some .assign =>
    d.mnemonic.needs.isEmpty && assignMembers.all fun m => m.needs.all (·.suits row.tail)
  | some .transition =>
    d.mnemonic.needs == [.method, .number 1] && (Need.number 0).suits row &&
      (Need.number 0).suits row.tail
  | some .options => d.mnemonic.needs == [.choices] && d.layout != .bare

theorem descriptor?_suits {version : Version} {op : UInt8} {d : Descriptor}
    (hd : version.descriptor? op = some d) : d.suits = true := by
  have hall : ∀ e ∈ version.overlay ++ baseEntries, e.2.suits = true := by
    cases version <;> decide
  exact hall _ (mem_of_descriptor? hd)

/-- Naming replaces a selector by a member of its family, or a code by its transition, or
nothing. -/
theorem nameOperands_cases (d : Descriptor) (operands : List Operand) :
    nameOperands d operands = (d.mnemonic, operands) ∨
      (∃ selector others m, operands = .int selector :: others ∧
        nameOperands d operands = (m, others) ∧
        (d.family = some .branch ∧ m ∈ branchMembers ∨
          d.family = some .assign ∧ m ∈ assignMembers)) ∨
      ∃ code others t, operands = .int code :: others ∧ d.family = some .transition ∧
        nameOperands d operands = (d.mnemonic, .transition t :: others) := by
  unfold nameOperands
  split
  · next selector others _ hfamily =>
    split
    · next m hm =>
      exact .inr (.inl ⟨selector, others, m, rfl, rfl, .inl ⟨hfamily, mem_of_entryAt? hm⟩⟩)
    · exact .inl rfl
  · next selector others _ hfamily =>
    split
    · next m hm =>
      exact .inr (.inl ⟨selector, others, m, rfl, rfl, .inr ⟨hfamily, mem_of_entryAt? hm⟩⟩)
    · exact .inl rfl
  · next code others _ hfamily =>
    split
    · next t _ => exact .inr (.inr ⟨code, others, t, rfl, hfamily, rfl⟩)
    · exact .inl rfl
  · exact .inl rfl

/-- The operands behind the first one stand in the fields behind the first one. -/
theorem fills_tail {row : List Field} {first : Operand} {others : List Operand}
    (h : List.Forall₂ Operand.Fills row (first :: others)) :
    List.Forall₂ Operand.Fills row.tail others := by
  cases h with
  | cons _ hothers => exact hothers

/-- What stands in a row that starts with a number starts with one. -/
theorem exists_code {row : List Field} {operands : List Operand}
    (h : List.Forall₂ Operand.Fills row operands) (hcode : (Need.number 0).suits row) :
    ∃ code others, operands = .int code :: others := by
  cases h with
  | nil => exact absurd hcode (by simp [Need.suits])
  | @cons field o _ others hfill _ =>
    have hne : field ≠ .cstr := by simpa [Need.suits] using hcode
    obtain ⟨code, rfl, -⟩ := hfill.exists_number hne
    exact ⟨code, others, rfl⟩

/-- A transition is named or is left as its code; its time is the operand behind it. -/
theorem meets_of_method {i : Instruction} {first : Operand} {others : List Operand}
    (hops : i.operands = first :: others) {row : List Field}
    (hothers : List.Forall₂ Operand.Fills row others) (htime : (Need.number 0).suits row)
    (hfirst : (∃ code, first = .int code) ∨ ∃ t, first = .transition t) :
    ∀ need ∈ [Need.method, .number 1], need.Met i := by
  have hnumber : (Need.number 1).Met i := by
    have hmet : (Need.number 0).Met { i with operands := others } :=
      Need.met_of_suits hothers htime
    obtain ⟨n, hn, hbounds⟩ := hmet
    refine ⟨n, ?_, hbounds⟩
    rw [← hn, Instruction.int?, Instruction.int?, hops, List.getElem?_cons_succ]
  have hmethod : Need.method.Met i := by
    unfold Need.Met Screenplay.Command.method?
    rw [hops, List.head?_cons]
    rcases hfirst with ⟨code, rfl⟩ | ⟨t, rfl⟩
    · exact ⟨.code code, rfl⟩
    · exact ⟨.named t, rfl⟩
  intro need hneed
  simp only [List.mem_cons, List.not_mem_nil, or_false] at hneed
  rcases hneed with rfl | rfl
  · exact hmethod
  · exact hnumber

/-- What the fields of an operation give is what it needs, also after its selector or code is
named. -/
theorem meets_of_fills {d : Descriptor} (hsuits : d.suits = true) {operands : List Operand}
    (hoptions : d.family ≠ some .options)
    (hfills : List.Forall₂ Operand.Fills (d.layout.row.filter (· != .pad)) operands)
    {i : Instruction} (hshown : (i.mnemonic, i.operands) = nameOperands d operands) :
    ∀ need ∈ i.mnemonic.needs, need.Met i := by
  unfold Descriptor.suits at hsuits
  dsimp only at hsuits
  generalize d.layout.row.filter (· != .pad) = row at hfills hsuits
  rcases nameOperands_cases d operands with hsame | ⟨selector, others, m, rfl, hnamed, hmember⟩ |
    ⟨code, others, t, rfl, hfamily, hnamed⟩
  · -- nothing is named: the operands are those of the fields
    obtain ⟨hm, rfl⟩ := Prod.mk.inj (hshown.trans hsame)
    rw [hm]
    cases hfamily : d.family with
    | none =>
      rw [hfamily] at hsuits
      exact fun need hneed => Need.met_of_suits hfills (List.all_eq_true.mp hsuits need hneed)
    | some family =>
      rw [hfamily] at hsuits hoptions
      cases family with
      | branch | assign =>
        -- a member that the selector does not name has no needs
        have hnone := List.isEmpty_iff.mp (Bool.and_eq_true_iff.mp hsuits).1
        rw [hnone]
        exact fun need hneed => absurd hneed (by simp)
      | transition =>
        simp only [Bool.and_eq_true, beq_iff_eq] at hsuits
        obtain ⟨⟨hneeds, hcode⟩, htime⟩ := hsuits
        obtain ⟨code, others, hops⟩ := exists_code hfills hcode
        rw [hneeds]
        exact meets_of_method hops (fills_tail (hops ▸ hfills)) htime (.inl ⟨code, rfl⟩)
      | options => exact absurd rfl hoptions
  · obtain ⟨rfl, rfl⟩ := Prod.mk.inj (hshown.trans hnamed)
    rcases hmember with ⟨hfamily, hmem⟩ | ⟨hfamily, hmem⟩ <;>
      · rw [hfamily] at hsuits
        have hall := List.all_eq_true.mp (Bool.and_eq_true_iff.mp hsuits).2 _ hmem
        exact fun need hneed =>
          Need.met_of_suits (fills_tail hfills) (List.all_eq_true.mp hall need hneed)
  · obtain ⟨hm, hops⟩ := Prod.mk.inj (hshown.trans hnamed)
    rw [hfamily] at hsuits
    simp only [Bool.and_eq_true, beq_iff_eq] at hsuits
    obtain ⟨⟨hneeds, -⟩, htime⟩ := hsuits
    rw [hm, hneeds]
    exact meets_of_method hops (fills_tail hfills) htime (.inr ⟨t, rfl⟩)

theorem meets_of_spans {version : Version} {op : UInt8} {d : Descriptor} {body : Body}
    {piece rest : List UInt8} {i : Instruction} (hd : version.descriptor? op = some d)
    (hspans : Body.Spans d piece rest body)
    (hshown : (i.mnemonic, i.operands) = nameOperands d body.operands) :
    ∀ need ∈ i.mnemonic.needs, need.Met i := by
  have hsuits := descriptor?_suits hd
  cases body with
  | row slots =>
    obtain ⟨hrow, hspans⟩ := hspans
    refine meets_of_fills hsuits ?_ hspans.fills hshown
    intro hoptions
    simp only [Descriptor.suits, hoptions, Bool.and_eq_true, bne_iff_ne, ne_eq] at hsuits
    rcases hrow with hbare | hother
    · exact hsuits.2 hbare
    · exact hother hoptions
  | menu choices =>
    obtain ⟨-, hfamily, -⟩ := hspans
    simp only [Descriptor.suits, hfamily, Bool.and_eq_true, beq_iff_eq] at hsuits
    rcases nameOperands_cases d [.options choices] with hsame | ⟨_, _, _, heq, -⟩ |
      ⟨_, _, _, heq, -⟩
    · obtain ⟨hm, hops⟩ := Prod.mk.inj (hshown.trans hsame)
      intro need hneed
      rw [hm, hsuits.1, List.mem_singleton] at hneed
      rw [hneed]
      exact ⟨choices, by rw [Instruction.options?, hops]; rfl⟩
    · exact absurd heq (by simp)
    · exact absurd heq (by simp)

/-- A decoded instruction has the operands that its operation needs. -/
theorem decode_meets (version : Version) (script : List UInt8) :
    ∀ i ∈ decode version true script, ∀ need ∈ i.mnemonic.needs, need.Met i := by
  intro i hi
  have hnone : i.mnemonic.needs = [] → ∀ need ∈ i.mnemonic.needs, need.Met i := by
    intro hnil need hneed
    rw [hnil] at hneed
    cases hneed
  by_cases hproper : i.IsProper
  · obtain ⟨before, after, hsplit⟩ := List.mem_iff_append.mp hi
    obtain ⟨k, op, tail, -, -, -, hparsed⟩ :=
      decodeFrom_parsed version true 0 script i after ⟨before, hsplit.symm⟩ hproper
    cases hparsed with
    | skipped _ _ _ _ hshown _ => exact hnone (by rw [hshown.1]; rfl)
    | truncated _ _ _ _ hshown _ => exact hnone (by rw [hshown.1]; rfl)
    | regular d body piece rest hknown _ hspans _ _ hshown _ =>
      exact meets_of_spans hknown hspans hshown
  · rcases not_and_or.mp hproper with hmark | hmark
    · exact hnone (by rw [not_not.mp hmark]; rfl)
    · exact hnone (by rw [not_not.mp hmark]; rfl)

end Rio.Bytecode

namespace Rio

/-- A jump or branch that leads to a negative address. -/
def Instruction.isMisdirected (i : Instruction) : Bool :=
  i.mnemonic == .jmpOffset && (i.int? 0).any (· < 0) ||
    i.mnemonic.isConditional && (i.int? 2).any fun rel => (i.next : Int) + rel < 0

end Rio

namespace Rio.Screenplay

open Command

variable {i : Instruction}

/-- Numbers below 32 bits are addresses unless they are negative. -/
theorem addressOfInt?_eq_none_iff {n : Int} (h : n < 0x100000000) :
    addressOfInt? n = none ↔ n < 0 := by
  unfold addressOfInt?
  split
  · next hn => simpa using hn.1
  · next hn => simp only [true_iff]; omega

theorem ofOption_eq_malformed_iff {o : Option Command} :
    Reading.ofOption o = .malformed ↔ o = none := by
  cases o <;> simp [Reading.ofOption]

/-- Apart from jumps and branches no instruction that has what it needs is malformed. -/
theorem ofInstruction_ne_malformed (hmet : ∀ need ∈ i.mnemonic.needs, need.Met i)
    (hjump : i.mnemonic ≠ .jmpOffset) (hcond : i.mnemonic.isConditional = false) :
    Reading.ofInstruction i ≠ .malformed := by
  unfold Reading.ofInstruction
  generalize i.mnemonic = m at hmet hjump hcond ⊢
  -- an instruction is malformed only if an operand is not there
  have hread : ∀ o : Option Command, o ≠ none → Reading.ofOption o ≠ .malformed :=
    fun o ho h => ho (ofOption_eq_malformed_iff.mp h)
  cases m
  case jbe | jle | jeq | jne | jbt | jlt => cases hcond
  case jmpOffset => exact absurd rfl hjump
  case goto | call | eventName | sideImage | setTransMask | textExtend | video | voice =>
    obtain ⟨⟨s, hs⟩, -⟩ := List.forall_mem_cons.mp hmet
    exact hread _ (by simp [hs])
  case textSizeModifier | seStop | tint | tintIo | layer1Cl | bgmStop =>
    obtain ⟨⟨n, hn, -⟩, -⟩ := List.forall_mem_cons.mp hmet
    exact hread _ (by simp [hn])
  case option =>
    obtain ⟨⟨choices, hchoices⟩, -⟩ := List.forall_mem_cons.mp hmet
    exact hread _ (by simp [hchoices])
  case transition | transitionIo =>
    simp only [Mnemonic.needs, List.forall_mem_cons, Need.Met] at hmet
    obtain ⟨⟨method, hmethod⟩, ⟨ms, hms, -⟩, -⟩ := hmet
    exact hread _ (by simp [hmethod, hms])
  case seFadeout | weather | rnd =>
    simp only [Mnemonic.needs, List.forall_mem_cons, Need.Met] at hmet
    obtain ⟨⟨a, ha, -⟩, ⟨b, hb, -⟩, -⟩ := hmet
    exact hread _ (by simp [ha, hb])
  case bgVp | screenEffect =>
    simp only [Mnemonic.needs, List.forall_mem_cons, Need.Met] at hmet
    obtain ⟨⟨a, ha, -⟩, ⟨b, hb, -⟩, ⟨d, hd, -⟩, -⟩ := hmet
    exact hread _ (by simp [ha, hb, hd])
  case add | sub | movf | mod =>
    simp only [Mnemonic.needs, List.forall_mem_cons, Need.Met] at hmet
    obtain ⟨⟨a, ha, -⟩, ⟨b, hb, -⟩, ⟨d, hd, -⟩, -⟩ := hmet
    exact hread _ (by simp [ofAssign, source?, furtherSource?, ha, hb, hd])
  case mov =>
    simp only [Mnemonic.needs, List.forall_mem_cons, Need.Met] at hmet
    obtain ⟨⟨a, ha, -⟩, ⟨b, hb, -⟩, ⟨d, hd, -⟩, -⟩ := hmet
    refine hread _ ?_
    by_cases hreveal : a = revealFlag
    · by_cases hlevel : b = 0 <;> simp [ofMove, source?, ha, hb, hd, hreveal, hlevel]
    · simp [ofMove, ofAssign, source?, ha, hb, hd, hreveal]
  case bgm | bgmNoarg3 | bgmIo =>
    simp only [Mnemonic.needs, List.forall_mem_cons, Need.Met] at hmet
    obtain ⟨⟨s, hs⟩, ⟨fadein, hfadein, -⟩, -⟩ := hmet
    exact hread _ (by simp [hs, hfadein])
  case se | seNoarg8 | seIo =>
    simp only [Mnemonic.needs, List.forall_mem_cons, Need.Met] at hmet
    obtain ⟨⟨a, ha, -⟩, ⟨b, hb, -⟩, ⟨d, hd, -⟩, ⟨s, hs⟩, -⟩ := hmet
    refine hread _ ?_
    by_cases hneg : a < 0 <;> simp [ofSound, ha, hb, hd, hs, hneg]
  case bg | obj =>
    simp only [Mnemonic.needs, List.forall_mem_cons, Need.Met] at hmet
    obtain ⟨⟨s, hs⟩, ⟨x, hx, -⟩, ⟨y, hy, -⟩, -⟩ := hmet
    exact hread _ (by simp [hs, hx, hy])
  case fg =>
    simp only [Mnemonic.needs, List.forall_mem_cons, Need.Met] at hmet
    obtain ⟨⟨s, hs⟩, ⟨k, hk⟩, ⟨x, hx, -⟩, ⟨y, hy, -⟩, ⟨u, hu, -⟩, -⟩ := hmet
    exact hread _ (by simp [ofForeground, hs, hk, hx, hy, hu])
  case fgNoarg7 =>
    simp only [Mnemonic.needs, List.forall_mem_cons, Need.Met] at hmet
    obtain ⟨⟨s, hs⟩, ⟨k, hk⟩, ⟨x, hx, -⟩, ⟨y, hy, -⟩, -⟩ := hmet
    exact hread _ (by simp [ofForeground, hs, hk, hx, hy])
  -- the others look at no operand, or only under a condition
  all_goals exact Reading.noConfusion

theorem ofInstruction_eq_ofBranch {cmp : Comparison} (hcmp : i.mnemonic.comparison? = some cmp) :
    Reading.ofInstruction i = .ofOption (ofBranch i cmp) := by
  unfold Reading.ofInstruction
  generalize i.mnemonic = m at hcmp
  cases m with
  | jbe | jle | jeq | jne | jbt | jlt =>
    obtain rfl := Option.some.inj hcmp
    rfl
  | _ => cases hcmp

theorem ofInstruction_of_isConditional (hcond : i.mnemonic.isConditional) :
    ∃ cmp, Reading.ofInstruction i = .ofOption (ofBranch i cmp) := by
  obtain ⟨cmp, hcmp⟩ := Option.isSome_iff_exists.mp hcond
  exact ⟨cmp, ofInstruction_eq_ofBranch hcmp⟩

/-- The malformed among the instructions that have what they need are those that lead to a negative
address. -/
theorem ofInstruction_eq_malformed_iff (hmet : ∀ need ∈ i.mnemonic.needs, need.Met i)
    (hnext : i.next < 0x80000000) :
    Reading.ofInstruction i = .malformed ↔ i.isMisdirected = true := by
  unfold Instruction.isMisdirected
  by_cases hjump : i.mnemonic = .jmpOffset
  · rw [hjump] at hmet
    obtain ⟨⟨n, hn, hlo, hhi⟩, -⟩ := List.forall_mem_cons.mp hmet
    have hread : Reading.ofInstruction i = .ofOption ((addressOfInt? n).map Command.jump) := by
      simp [Reading.ofInstruction, hjump, hn]
    rw [hread, ofOption_eq_malformed_iff, Option.map_eq_none_iff,
      addressOfInt?_eq_none_iff (by omega)]
    simp [hjump, hn, Mnemonic.isConditional, Mnemonic.comparison?]
  · by_cases hcond : i.mnemonic.isConditional
    · have hneeds : i.mnemonic.needs = [.number 0, .number 1, .number 2] := by
        generalize i.mnemonic = m at hcond
        cases m with
        | jbe | jle | jeq | jne | jbt | jlt => rfl
        | _ => cases hcond
      rw [hneeds] at hmet
      simp only [List.forall_mem_cons, Need.Met] at hmet
      obtain ⟨⟨flag, hflag, -⟩, ⟨value, hvalue, -⟩, ⟨rel, hrel, hlo, hhi⟩, -⟩ := hmet
      obtain ⟨cmp, hread⟩ := ofInstruction_of_isConditional hcond
      have hbranch : ofBranch i cmp
          = (addressOfInt? (i.next + rel)).map fun close => .branch ⟨cmp, flag, value, close⟩ := by
        simp only [ofBranch, hflag, hvalue, hrel, Option.bind_eq_bind, Option.bind_some,
          Option.pure_def]
        rw [Option.map_eq_bind]
        rfl
      rw [hread, hbranch, ofOption_eq_malformed_iff, Option.map_eq_none_iff,
        addressOfInt?_eq_none_iff (by omega)]
      simp [hjump, hcond, hrel]
    · have hne := ofInstruction_ne_malformed hmet hjump (by simpa using hcond)
      simp [hne, hjump, hcond]

/-! ## Which instructions are read as a command -/

/-- Whether an instruction of some operation may be read as a command. -/
def Command.isFrom : Command → Mnemonic → Bool
  | .branch _, m => m.isConditional
  | .jump _, .jmpOffset | .goto _, .goto | .call _, .call | .ret, .ret | .menu _, .option
  | .nothing, .eof | .nothing, .eofIo
  | .revealDuration _, .mov | .revealFromFlag _, .mov | .assign .., .mov | .assign .., .add
  | .assign .., .sub | .assign .., .movf | .assign .., .mod | .random .., .rnd | .clearFlags, .clr
  | .textSize _, .textSizeModifier | .extend _, .textExtend | .sleep _, .sleep
  | .eventName _, .eventName
  | .playMusic .., .bgm | .playMusic .., .bgmNoarg3 | .playMusic .., .bgmIo | .stopMusic _, .bgmStop
  | .playSound .., .se | .playSound .., .seNoarg8 | .playSound .., .seIo
  | .playNowhere, .se | .playNowhere, .seNoarg8 | .playNowhere, .seIo
  | .stopSound .., .seStop | .stopSound .., .seFadeout | .voice _, .voice
  | .background .., .bg | .viewport .., .bgVp | .foreground .., .fg | .foreground .., .fgNoarg7
  | .tint _, .tint | .tint _, .tintIo | .object .., .obj | .clearForeground _, .layer1Cl
  | .clearObject, .objCl | .sideImage _, .sideImage | .hideSideImage, .hideSideImage
  | .mask _, .setTransMask | .weather .., .weather | .screenEffect .., .screenEffect
  | .clearScreenEffect, .clearScreenEffect | .video _, .video
  | .transition .., .transition | .transition .., .transitionIo
  | .keyFrame _, .addAnimationKeyFrame | .play, .playAnimation | .play, .playAnimationNoskip => true
  | .say, m => m.isSay
  | _, _ => false

theorem ofOption_eq_command_iff {o : Option Command} {command : Command} :
    Reading.ofOption o = .command command ↔ o = some command := by
  cases o <;> simp [Reading.ofOption]

theorem isFrom_of_command {command : Command} (h : Reading.ofInstruction i = .command command) :
    command.isFrom i.mnemonic := by
  unfold Reading.ofInstruction at h
  generalize i.mnemonic = m at h ⊢
  -- the cases are grouped by how many operands have to be there before the command is read
  cases m
  case jbe | jle | jeq | jne | jbt | jlt =>
    have hread := ofOption_eq_command_iff.mp h
    simp only [ofBranch, Option.bind_eq_bind, Option.bind_eq_some_iff, Option.pure_def,
      Option.some.injEq] at hread
    obtain ⟨_, -, _, -, _, -, _, -, rfl⟩ := hread
    rfl
  case jmpOffset | goto | call | option | textSizeModifier | textExtend | eventName | bgmStop |
      voice | tint | tintIo | layer1Cl | sideImage | setTransMask | video =>
    obtain ⟨_, -, rfl⟩ := Option.map_eq_some_iff.mp (ofOption_eq_command_iff.mp h)
    rfl
  case seStop =>
    obtain ⟨_, -, hsome⟩ := Option.bind_eq_some_iff.mp (ofOption_eq_command_iff.mp h)
    obtain rfl := Option.some.inj hsome
    rfl
  case seFadeout | rnd | bgm | bgmNoarg3 | bgmIo | weather | transition | transitionIo | add | sub |
      movf | mod =>
    obtain ⟨_, -, hread⟩ := Option.bind_eq_some_iff.mp (ofOption_eq_command_iff.mp h)
    obtain ⟨_, -, hsome⟩ := Option.bind_eq_some_iff.mp hread
    obtain rfl := Option.some.inj hsome
    rfl
  case bg | bgVp | obj | screenEffect =>
    obtain ⟨_, -, hread⟩ := Option.bind_eq_some_iff.mp (ofOption_eq_command_iff.mp h)
    obtain ⟨_, -, hread⟩ := Option.bind_eq_some_iff.mp hread
    obtain ⟨_, -, hsome⟩ := Option.bind_eq_some_iff.mp hread
    obtain rfl := Option.some.inj hsome
    rfl
  case fg | fgNoarg7 =>
    have hread := ofOption_eq_command_iff.mp h
    simp only [ofForeground, Option.bind_eq_bind, Option.bind_eq_some_iff] at hread
    obtain ⟨_, -, _, -, _, -, _, -, _, -, hread⟩ := hread
    split at hread
    · cases hread
    · obtain rfl := Option.some.inj hread
      rfl
  case se | seNoarg8 | seIo =>
    have hread := ofOption_eq_command_iff.mp h
    simp only [ofSound, Option.bind_eq_bind, Option.bind_eq_some_iff] at hread
    obtain ⟨_, -, _, -, _, -, hread⟩ := hread
    split at hread
    · obtain rfl := Option.some.inj hread
      rfl
    · obtain ⟨_, -, hsome⟩ := Option.bind_eq_some_iff.mp hread
      obtain rfl := Option.some.inj hsome
      rfl
  case mov =>
    have hread := ofOption_eq_command_iff.mp h
    simp only [ofMove, Option.bind_eq_bind, Option.bind_eq_some_iff] at hread
    obtain ⟨_, -, hread⟩ := hread
    split at hread
    · obtain ⟨source, -, hsome⟩ := Option.bind_eq_some_iff.mp hread
      cases source <;>
        · obtain rfl := Option.some.inj hsome
          rfl
    · obtain ⟨_, -, hread⟩ := Option.bind_eq_some_iff.mp hread
      obtain ⟨_, -, hsome⟩ := Option.bind_eq_some_iff.mp hread
      obtain rfl := Option.some.inj hsome
      rfl
  case eof | eofIo | ret | clr | textN | textC | textNIo | sleep | objCl | hideSideImage |
      clearScreenEffect | addAnimationKeyFrame | playAnimation | playAnimationNoskip =>
    obtain rfl := Reading.command.inj h
    rfl
  all_goals cases h

/-! ## Operands that are looked at only under a condition -/

theorem utterance?_isSome (hmet : ∀ need ∈ i.mnemonic.needs, need.Met i)
    (hsay : i.mnemonic.isSay) : (utterance? i).isSome := by
  unfold utterance?
  generalize i.mnemonic = m at hmet hsay
  cases m with
  | textN | textNIo =>
    obtain ⟨⟨s, hs⟩, -⟩ := List.forall_mem_cons.mp hmet
    simp [hs]
  | textC =>
    simp only [Mnemonic.needs, List.forall_mem_cons, Need.Met] at hmet
    obtain ⟨⟨s, hs⟩, ⟨u, hu⟩, -⟩ := hmet
    simp [hs, hu]
  | _ => cases hsay

/-- A pause has its length. -/
theorem isSome_of_sleep (hmet : ∀ need ∈ i.mnemonic.needs, need.Met i) {ms : Option Int}
    (h : Reading.ofInstruction i = .command (.sleep ms)) : ms.isSome := by
  have hm : i.mnemonic = .sleep := by
    have hfrom := isFrom_of_command h
    generalize i.mnemonic = m at hfrom
    cases m with
    | sleep => rfl
    | _ => cases hfrom
  rw [hm] at hmet
  obtain ⟨⟨n, hn, -⟩, -⟩ := List.forall_mem_cons.mp hmet
  simp only [Reading.ofInstruction, hm, Reading.command.injEq, Command.sleep.injEq] at h
  rw [← h, hn]
  rfl

/-- A key frame has its motion. -/
theorem isSome_of_keyFrame (hmet : ∀ need ∈ i.mnemonic.needs, need.Met i) {motion : Option Motion}
    (h : Reading.ofInstruction i = .command (.keyFrame motion)) : motion.isSome := by
  have hm : i.mnemonic = .addAnimationKeyFrame := by
    have hfrom := isFrom_of_command h
    generalize i.mnemonic = m at hfrom
    cases m with
    | addAnimationKeyFrame => rfl
    | _ => cases hfrom
  rw [hm] at hmet
  simp only [Mnemonic.needs, List.forall_mem_cons, Need.Met] at hmet
  obtain ⟨⟨n₀, h₀, -⟩, ⟨n₁, h₁, -⟩, ⟨n₂, h₂, -⟩, ⟨n₃, h₃, -⟩, ⟨n₅, h₅, -⟩, -⟩ := hmet
  simp only [Reading.ofInstruction, hm, Reading.command.injEq, Command.keyFrame.injEq] at h
  rw [← h]
  simp [motion?, h₀, h₁, h₂, h₃, h₅]

end Rio.Screenplay
