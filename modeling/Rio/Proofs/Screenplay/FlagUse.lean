import Rio.Proofs.Screenplay.Faults
import Rio.Proofs.Screenplay.Menus

/-!
# Flags that a script may use

Branches, assignments and menus use flags by number. The profile says which of them a script may
use, and by what expression (`Profile.reference?`): a number has none if it is no address, if no
bank keeps it, or if its use is excluded or only hinted at. What becomes of an instruction then
depends on these expressions and nothing else:

> `transpile_flags`: a branch becomes an `if` on its flag, or `if False:` if it may not use the
> flag, and opens a block that closes at the same address either way; an assignment is written
> exactly if every flag in it may be used, and never if it sets how long lines take to appear; an
> entry of a menu becomes a choice with the same jump, on condition or not. No other statement uses
> a flag.

Each command is followed to the statements that it appends (`statements_branch` and so on), and
what the instruction gives to the command is read off its operands, which a decoded instruction
always has.
-/

namespace Rio

open Renpy (AssignOp Document Statement)

/-- The expression through which a script may use a flag. -/
def Profile.reference? (p : Profile) (flag : Int) : Option String := do
  let addr ← addressOfInt? flag
  let bank ← p.bankFor? addr
  if (p.flag? addr).all (·.policy == .allow) then some (referenceIn bank addr (p.flagName? addr))
  else none

/-- The operator of an assignment. -/
def Mnemonic.assignOp? : Mnemonic → Option AssignOp
  | .mov | .movf => some .set
  | .add => some .add
  | .sub => some .sub
  | .mod => some .mod
  | _ => none

/-- How many flags lie between the last operand of an assignment and the value that is assigned. -/
def Instruction.level (i : Instruction) : Nat :=
  (if i.int? 1 = some 0 then 0 else 1) + if i.mnemonic = .movf then 1 else 0

namespace Screenplay

variable {c : Context} {s s' t : State} {i : Instruction} {rest : List Instruction}

/-- The right side that is given by an operand and a number of flags in between. -/
def Source.ofLevel (operand : Int) : Nat → Source
  | 0 => .immediate operand
  | 1 => .flag operand
  | _ => .through operand

/-- The expression of a right side, if its flag may be used. -/
def Source.text? (p : Profile) (op : AssignOp) : Source → Option String
  | .immediate value => some (immediateText op value)
  | .flag addr => p.reference? addr
  | .through addr =>
    (p.reference? addr).map fun reference => p.combinedBanks ++ "[" ++ reference ++ "]"

/-- What a branch becomes. -/
def ifStatement (p : Profile) (cmp : Comparison) (flag value : Int) : Statement :=
  match p.reference? flag with
  | some reference => .ifFlag reference cmp value
  | none => .ifFalse

/-- What an assignment becomes, if anything. -/
def assignStatement? (p : Profile) (flag : Int) (op : AssignOp) (source : Source) :
    Option Statement := do
  return .assign (← p.reference? flag) op (← source.text? p op)

/-- What an assignment of a random number becomes, if anything. -/
def randomStatement? (p : Profile) (flag max : Int) : Option Statement := do
  return .assign (← p.reference? flag) .set ("renpy.random.randint(0, " ++ toString max ++ ")")

/-- What an entry of a menu becomes. -/
def choiceStatements (c : Context) (o : MenuOption) : List Statement :=
  [.choice (c.dialogue o.text) (c.profile.reference? o.flag),
    .jump (.script (c.scriptName o.target))]

/-- The statements of a block; there is always one. -/
def blockStatements (body : List Statement) : List Statement :=
  if body.isEmpty then [.pass] else body

/-! ## What is granted -/

/-- An access that is granted has the reference of its flag. -/
theorem reference?_flagAccess (p : Profile) (flag : Int) :
    (flagAccess p flag).reference? = p.reference? flag := by
  unfold flagAccess Profile.reference?
  cases addressOfInt? flag with
  | none => rfl
  | some addr =>
    show (p.access addr).reference? = _
    unfold Profile.access Profile.flagName?
    cases hbank : p.bankFor? addr with
    | none => simp [hbank, FlagAccess.reference?]
    | some bank =>
      cases hentry : p.flag? addr with
      | none => simp [hbank, hentry, FlagAccess.reference?]
      | some entry =>
        cases hpolicy : entry.policy <;> simp [hbank, hentry, hpolicy, FlagAccess.reference?]

/-- What keeps a script from using a flag. -/
theorem reference?_eq_none_iff (p : Profile) {flag : Int} (hflag : flag < 0x100000000) :
    p.reference? flag = none ↔ flag < 0 ∨ (∀ bank ∈ p.flagBanks, bank.contains flag.toNat = false) ∨
      ∃ entry, p.flag? flag.toNat = some entry ∧ entry.policy ≠ .allow := by
  by_cases hneg : flag < 0
  · simp [Profile.reference?, (addressOfInt?_eq_none_iff hflag).mpr hneg, hneg]
  · have haddr : addressOfInt? flag = some flag.toNat := if_pos ⟨by omega, hflag⟩
    have hbank : p.bankFor? flag.toNat = none
        ↔ ∀ bank ∈ p.flagBanks, bank.contains flag.toNat = false := by
      simp [Profile.bankFor?]
    rw [← hbank]
    cases hfound : p.bankFor? flag.toNat with
    | none => simp [Profile.reference?, haddr, hfound]
    | some bank =>
      cases hentry : p.flag? flag.toNat with
      | none => simp [Profile.reference?, haddr, hfound, hentry, hneg]
      | some entry => simp [Profile.reference?, haddr, hfound, hentry, hneg]

theorem reference?_flagAccessThrough (p : Profile) (flag : Int) :
    (flagAccessThrough p flag).reference?
      = (p.reference? flag).map fun reference => p.combinedBanks ++ "[" ++ reference ++ "]" := by
  rw [← reference?_flagAccess]
  unfold flagAccessThrough flagAccess
  cases addressOfInt? flag with
  | none => rfl
  | some addr =>
    show (p.accessThrough addr).reference? = (p.access addr).reference?.map _
    unfold Profile.accessThrough
    cases p.access addr <;> rfl

/-! ## Statements of commands -/

/-- A branch writes its `if`, on the flag or on nothing. -/
theorem statements_branch (c : Context) (s : State) (b : Branch) :
    (branch c s b).document.statements
      = s.document.statements ++ [ifStatement c.profile b.cmp b.flag b.value] := by
  unfold ifStatement branch
  rw [← reference?_flagAccess]
  have hclosed : ∀ t : State, t.document.statements = s.document.statements →
      ((t.remark (.inaccessibleBranch b.flag)).header .ifFalse).document.statements
        = s.document.statements ++ [.ifFalse] := by
    intro t ht
    show ((t.document.comment (.inaccessibleBranch b.flag)).header .ifFalse).statements = _
    rw [Document.statements_header, Document.statements_comment, ht]
  cases flagAccess c.profile b.flag with
  | granted reference => exact s.document.statements_header _
  | excluded => exact hclosed s rfl
  | hinted reference => exact hclosed _ (s.document.statements_comment _)
  | unmapped => exact hclosed _ (s.document.statements_comment _)

/-- A right side is read off its flag, if it has one. -/
theorem sourceText_eq (c : Context) (s : State) (op : AssignOp) (source : Source) :
    (sourceText c s op source).1 = source.text? c.profile op ∧
      (sourceText c s op source).2.document.statements = s.document.statements := by
  cases source with
  | immediate value => exact ⟨rfl, rfl⟩
  | flag addr =>
    refine ⟨?_, statements_access ..⟩
    exact (access_fst ..).trans (reference?_flagAccess ..)
  | through addr =>
    refine ⟨?_, statements_access ..⟩
    exact (access_fst ..).trans (reference?_flagAccessThrough ..)

/-- An assignment writes its statement if both flags may be used. -/
theorem statements_assign (c : Context) (s : State) (flag : Int) (op : AssignOp) (source : Source) :
    (assign c s flag op source).document.statements
      = s.document.statements ++ (assignStatement? c.profile flag op source).toList := by
  obtain ⟨hvalue, hsame⟩ := sourceText_eq c s op source
  unfold assign assignStatement?
  dsimp only
  rw [hvalue, ← reference?_flagAccess]
  generalize source.text? c.profile op = value?
  generalize (sourceText c s op source).2 = t at hsame
  have hasked := statements_access t flag (flagAccess c.profile flag) fun r =>
    .hintedAssign r op (value?.getD "<NO_RESULT>")
  rw [access_fst]
  generalize (t.access flag (flagAccess c.profile flag) fun r =>
    .hintedAssign r op (value?.getD "<NO_RESULT>")).2 = u at hasked
  rw [hsame] at hasked
  cases (flagAccess c.profile flag).reference? with
  | none => simpa using hasked
  | some reference =>
    cases value? with
    | none => exact (u.document.statements_comment _).trans (by simpa using hasked)
    | some value => exact (u.document.statements_statement _).trans (by simp [hasked])

theorem statements_assignRandom (c : Context) (s : State) (flag max : Int) :
    (assignRandom c s flag max).document.statements
      = s.document.statements ++ (randomStatement? c.profile flag max).toList := by
  unfold assignRandom randomStatement?
  rw [← reference?_flagAccess]
  cases flagAccess c.profile flag with
  | granted reference => exact s.document.statements_statement _
  | excluded => simp [State.access, FlagAccess.reference?]
  | hinted reference => simp [State.access, State.remark, FlagAccess.reference?]
  | unmapped => simp [State.access, State.remark, FlagAccess.reference?]

/-- The choices of a menu are written in order. -/
theorem statements_choices (c : Context) (choices : List MenuOption) (s : State) :
    (choices.foldl (choice c) s).document.statements
      = s.document.statements ++ choices.flatMap (choiceStatements c) := by
  induction choices generalizing s with
  | nil => simp
  | cons o choices ih =>
    rw [List.foldl_cons, ih, choice, statements_offer, reference?_flagAccess, List.flatMap_cons,
      List.append_assoc]
    rfl

/-! ## Menus -/

/-- Acts that write nothing leave the open blocks as they are. -/
theorem scopes_of_acts (h : Acts c (fun _ => False) s t) :
    t.document.scopes = s.document.scopes := by
  refine h.preserves (I := fun t => t.document.scopes = s.document.scopes) ?_ rfl
  intro t t' hact ht
  cases hact with
  | emit hst | header hst | close hst | ask hst | place hst | scope _ hst => exact hst.elim
  | draw hcue => exact (hcue (.hide .object) rfl).elim
  | remark | report | remember | hold | release | stage | standIn => exact ht

/-- A line is a statement of the block that it is said in. -/
theorem scopes_speak {outer : List Bool} {filled : Bool}
    (hscopes : s.document.scopes = filled :: outer) (h : speak c s i = .ok s') :
    s'.document.scopes = true :: outer := by
  unfold speak at h
  split at h
  · split at h
    · next u hu =>
      obtain rfl := Except.ok.inj h
      have hline : Acts c (fun _ => False) s (line c s i.addr u.text).2 := line_acts ..
      exact Document.scopes_statement ((scopes_of_acts hline).trans hscopes) _
    · cases h
  · cases h

theorem scopes_offer {outer : List Bool} {filled : Bool}
    (hscopes : s.document.scopes = filled :: outer) (o : MenuOption) (found : FlagAccess) :
    (offer c s o found).document.scopes = true :: outer := by
  have hshown : ∀ (t : State) condition, t.document.scopes = filled :: outer →
      (((t.header (.choice (c.dialogue o.text) condition)).emit
        (.jump (.script (c.scriptName o.target)))).closeScope).document.scopes = true :: outer := by
    intro t condition ht
    exact Document.scopes_closeScope (Document.scopes_statement (Document.scopes_header ht _) _)
  cases found with
  | granted reference => exact hshown s _ hscopes
  | excluded => exact hshown _ _ hscopes
  | hinted reference => exact hshown _ _ hscopes
  | unmapped => exact hshown _ _ hscopes

/-- The choices of a menu, and the end of its block. -/
theorem statements_closeScope_choices {outer : List Bool} {filled : Bool} (c : Context)
    (choices : List MenuOption) (hscopes : s.document.scopes = filled :: outer) :
    (choices.foldl (choice c) s).closeScope.document.statements
      = s.document.statements ++
        if filled then choices.flatMap (choiceStatements c)
        else blockStatements (choices.flatMap (choiceStatements c)) := by
  have hfilled : (choices.foldl (choice c) s).document.scopes
      = (filled || !choices.isEmpty) :: outer := by
    induction choices generalizing s filled with
    | nil => simpa using hscopes
    | cons o choices ih =>
      have hfirst : (choice c s o).document.scopes = true :: outer := by
        unfold choice
        exact scopes_offer hscopes o (flagAccess c.profile o.flag)
      have hlater := ih hfirst
      rw [List.foldl_cons, hlater]
      simp
  show (choices.foldl (choice c) s).document.closeScope.rows.map (·.statement) = _
  rw [Document.rows_closeScope hfilled, List.map_append]
  change (choices.foldl (choice c) s).document.statements ++ _ = _
  rw [statements_choices, List.append_assoc]
  congr 1
  cases filled with
  | true => simp
  | false => cases choices <;> simp [blockStatements, choiceStatements]

/-- A menu has the line that waited for it, and its choices. -/
theorem statements_menu {choices : List MenuOption}
    (hmove : c.profile.moveSayIntoMenu = false → s.held = none) (h : menu c s choices = .ok s') :
    ∃ line, List.Forall₂ (Voices c) s.held.toList line ∧
      s'.document.statements = s.document.statements ++
        .menu :: blockStatements (line ++ choices.flatMap (choiceStatements c)) := by
  have hopen : (s.header .menu).document.statements = s.document.statements ++ [.menu] :=
    s.document.statements_header .menu
  rcases menu_cases hmove h with ⟨hheld, rfl⟩ | ⟨j, t, hheld, hspeak, rfl⟩
  · refine ⟨[], by rw [hheld]; exact .nil, ?_⟩
    have hscopes : (s.header .menu).document.scopes
        = false :: (s.document.statement .menu).scopes := rfl
    rw [statements_closeScope_choices c choices hscopes, hopen, List.append_assoc]
    rfl
  · obtain ⟨st, hst, hvoices⟩ := statements_speak hspeak
    have hscopes : t.document.scopes = true :: (s.document.statement .menu).scopes :=
      scopes_speak (s := { s.header .menu with held := none }) rfl hspeak
    refine ⟨[st], by rw [hheld]; exact .cons hvoices .nil, ?_⟩
    change t.document.statements = (s.header .menu).document.statements ++ [st] at hst
    rw [statements_closeScope_choices c choices hscopes, hst, hopen]
    simp [blockStatements]

/-! ## What the commands are read from -/

section

variable (hmet : ∀ need ∈ i.mnemonic.needs, need.Met i)

include hmet

theorem exists_operands (hneeds : i.mnemonic.needs = [.number 0, .number 1, .number 2]) :
    ∃ a b d, i.int? 0 = some a ∧ i.int? 1 = some b ∧ i.int? 2 = some d := by
  rw [hneeds] at hmet
  simp only [List.forall_mem_cons, Need.Met] at hmet
  obtain ⟨⟨a, ha, -⟩, ⟨b, hb, -⟩, ⟨d, hd, -⟩, -⟩ := hmet
  exact ⟨a, b, d, ha, hb, hd⟩

/-- A branch to an address. -/
theorem reading_of_comparison {cmp : Comparison} {close : Nat}
    (hcmp : i.mnemonic.comparison? = some cmp) (hclose : i.close? = some close) :
    ∃ flag value, i.int? 0 = some flag ∧ i.int? 1 = some value ∧
      Reading.ofInstruction i = .command (.branch ⟨cmp, flag, value, close⟩) := by
  have hneeds : i.mnemonic.needs = [.number 0, .number 1, .number 2] := by
    generalize i.mnemonic = m at hcmp
    cases m with
    | jbe | jle | jeq | jne | jbt | jlt => rfl
    | _ => cases hcmp
  obtain ⟨flag, value, rel, hflag, hvalue, hrel⟩ := exists_operands hmet hneeds
  have haddr : addressOfInt? (i.next + rel) = some close := by
    rw [Instruction.close?, if_pos (Instruction.isConditional_of_close? hclose), hrel] at hclose
    exact hclose
  refine ⟨flag, value, hflag, hvalue, ?_⟩
  rw [ofInstruction_eq_ofBranch hcmp, ofOption_eq_command_iff]
  simp [Command.ofBranch, hflag, hvalue, hrel, haddr]

/-- An assignment. Setting one of the flags only says how long lines take to appear. -/
theorem reading_of_assignOp {op : AssignOp} (hop : i.mnemonic.assignOp? = some op) :
    ∃ flag operand, i.int? 0 = some flag ∧ i.int? 2 = some operand ∧
      Reading.ofInstruction i = .command
        (if i.mnemonic = .mov ∧ flag = revealFlag then
          if i.int? 1 = some 0 then .revealDuration operand else .revealFromFlag operand
        else .assign flag op (.ofLevel operand i.level)) := by
  have hneeds : i.mnemonic.needs = [.number 0, .number 1, .number 2] := by
    generalize i.mnemonic = m at hop
    cases m with
    | mov | add | sub | movf | mod => rfl
    | _ => cases hop
  obtain ⟨flag, level, operand, hflag, hlevel, hoperand⟩ := exists_operands hmet hneeds
  refine ⟨flag, operand, hflag, hoperand, ?_⟩
  unfold Reading.ofInstruction Instruction.level
  generalize i.mnemonic = m at hop
  cases m with
  | mov =>
    obtain rfl := Option.some.inj hop
    rw [ofOption_eq_command_iff]
    by_cases hreveal : flag = revealFlag <;> by_cases hzero : level = 0 <;>
      simp [Command.ofMove, Command.ofAssign, Command.source?, Source.ofLevel, hflag, hlevel,
        hoperand, hreveal, hzero]
  | add | sub | mod =>
    obtain rfl := Option.some.inj hop
    rw [ofOption_eq_command_iff]
    by_cases hzero : level = 0 <;>
      simp [Command.ofAssign, Command.source?, Source.ofLevel, hflag, hlevel, hoperand, hzero]
  | movf =>
    obtain rfl := Option.some.inj hop
    rw [ofOption_eq_command_iff]
    by_cases hzero : level = 0 <;>
      simp [Command.ofAssign, Command.furtherSource?, Source.ofLevel, hflag, hlevel,
        hoperand, hzero]
  | _ => cases hop

theorem reading_of_rnd (hrnd : i.mnemonic = .rnd) :
    ∃ flag max, i.int? 0 = some flag ∧ i.int? 2 = some max ∧
      Reading.ofInstruction i = .command (.random flag max) := by
  rw [hrnd] at hmet
  simp only [Mnemonic.needs, List.forall_mem_cons, Need.Met] at hmet
  obtain ⟨⟨flag, hflag, -⟩, ⟨max, hmax, -⟩, -⟩ := hmet
  refine ⟨flag, max, hflag, hmax, ?_⟩
  rw [Reading.ofInstruction, hrnd, ofOption_eq_command_iff]
  simp [hflag, hmax]

/-- A menu is read with all of its choices. -/
theorem reading_of_option (hoption : i.mnemonic = .option) :
    ∃ choices, i.options? = some choices ∧ Reading.ofInstruction i = .command (.menu choices) := by
  rw [hoption] at hmet
  obtain ⟨⟨choices, hchoices⟩, -⟩ := List.forall_mem_cons.mp hmet
  refine ⟨choices, hchoices, ?_⟩
  rw [Reading.ofInstruction, hoption, ofOption_eq_command_iff]
  simp [hchoices]

end

/-! ## Statements that use flags -/

/-- Whether a statement uses a flag. -/
def usesFlag : Statement → Bool
  | .ifFlag .. | .assign .. | .choice _ (some _) => true
  | _ => false

/-- A statement that uses flags is what an instruction becomes that may use all its flags. -/
inductive Uses (p : Profile) (i : Instruction) : Statement → Prop where
  | branch {cmp : Comparison} {flag value : Int} {reference : String} :
      i.mnemonic.comparison? = some cmp → i.int? 0 = some flag → i.int? 1 = some value →
      p.reference? flag = some reference → Uses p i (.ifFlag reference cmp value)
  | assign {op : AssignOp} {flag operand : Int} {reference text : String} :
      i.mnemonic.assignOp? = some op → i.int? 0 = some flag → i.int? 2 = some operand →
      ¬(i.mnemonic = .mov ∧ flag = revealFlag) → p.reference? flag = some reference →
      (Source.ofLevel operand i.level).text? p op = some text → Uses p i (.assign reference op text)
  | random {flag max : Int} {reference : String} : i.mnemonic = .rnd → i.int? 0 = some flag →
      i.int? 2 = some max → p.reference? flag = some reference →
      Uses p i (.assign reference .set ("renpy.random.randint(0, " ++ toString max ++ ")"))
  | choice {choices : List MenuOption} {o : MenuOption} {text reference : String} :
      i.mnemonic = .option → i.options? = some choices → o ∈ choices →
      p.reference? o.flag = some reference → Uses p i (.choice text (some reference))

/-- The `if` of a branch uses the flag that its instruction compares. -/
theorem uses_ifStatement {cmp : Comparison} {flag value : Int}
    (hcmp : i.mnemonic.comparison? = some cmp) (hflag : i.int? 0 = some flag)
    (hvalue : i.int? 1 = some value) (h : usesFlag (ifStatement c.profile cmp flag value) = true) :
    Uses c.profile i (ifStatement c.profile cmp flag value) := by
  unfold ifStatement at h ⊢
  cases hreference : c.profile.reference? flag with
  | none =>
    rw [hreference] at h
    cases h
  | some reference => exact .branch hcmp hflag hvalue hreference

/-- An assignment uses the flags of its instruction. -/
theorem uses_assignStatement? {op : AssignOp} {flag operand : Int} {st : Statement}
    (hop : i.mnemonic.assignOp? = some op) (hflag : i.int? 0 = some flag)
    (hoperand : i.int? 2 = some operand) (hreveal : ¬(i.mnemonic = .mov ∧ flag = revealFlag))
    (h : assignStatement? c.profile flag op (.ofLevel operand i.level) = some st) :
    Uses c.profile i st := by
  simp only [assignStatement?, Option.bind_eq_bind, Option.bind_eq_some_iff, Option.pure_def,
    Option.some.injEq] at h
  obtain ⟨reference, hreference, text, htext, rfl⟩ := h
  exact .assign hop hflag hoperand hreveal hreference htext

theorem uses_randomStatement? {flag max : Int} {st : Statement} (hrnd : i.mnemonic = .rnd)
    (hflag : i.int? 0 = some flag) (hmax : i.int? 2 = some max)
    (h : randomStatement? c.profile flag max = some st) : Uses c.profile i st := by
  simp only [randomStatement?, Option.bind_eq_bind, Option.bind_eq_some_iff, Option.pure_def,
    Option.some.injEq] at h
  obtain ⟨reference, hreference, rfl⟩ := h
  exact .random hrnd hflag hmax hreference

/-- Under a menu only its choices use flags. -/
theorem uses_of_mem_menu {choices : List MenuOption} {held : Option Instruction}
    {line : List Statement} {st : Statement} (hoption : i.mnemonic = .option)
    (hchoices : i.options? = some choices) (hline : List.Forall₂ (Voices c) held.toList line)
    (hst : st ∈ .menu :: blockStatements (line ++ choices.flatMap (choiceStatements c)))
    (h : usesFlag st = true) : Uses c.profile i st := by
  rcases List.mem_cons.mp hst with rfl | hst
  · cases h
  · unfold blockStatements at hst
    split at hst
    · rw [List.mem_singleton.mp hst] at h
      cases h
    · rcases List.mem_append.mp hst with hst | hst
      · cases held with
        | none =>
          cases hline
          cases hst
        | some j =>
          obtain ⟨said, hvoices, rfl⟩ : ∃ said, Voices c j said ∧ line = [said] := by
            cases hline with
            | cons hvoices htail =>
              cases htail
              exact ⟨_, hvoices, rfl⟩
          rw [List.mem_singleton.mp hst] at h
          cases hvoices <;> cases h
      · obtain ⟨o, ho, hst⟩ := List.mem_flatMap.mp hst
        rcases List.mem_cons.mp hst with rfl | hst
        · cases hreference : c.profile.reference? o.flag with
          | none =>
            rw [hreference] at h
            cases h
          | some reference => exact .choice hoption hchoices ho hreference
        · rw [List.mem_singleton.mp hst] at h
          cases h

/-- Only some commands use flags. -/
def Command.usesFlags : Command → Bool
  | .branch _ | .assign .. | .random .. | .menu _ => true
  | _ => false

/-- Other commands use no flags. -/
theorem usesFlag_of_writes {command : Command} {st : Statement}
    (hcommand : command.usesFlags = false) (h : command.writes st = true) :
    usesFlag st = false := by
  cases st with
  | ifFlag | assign | choice =>
    cases command with
    | branch | assign | random | menu => cases hcommand
    | _ => cases h
  | _ => rfl

/-- What a command writes uses flags only as its instruction asks. -/
theorem uses_execute (hmet : ∀ need ∈ i.mnemonic.needs, need.Met i) {command : Command}
    (hread : Reading.ofInstruction i = .command command)
    (hmove : c.profile.moveSayIntoMenu = false → s.held = none) (rest : List Instruction) :
    Written (fun st => usesFlag st = true → Uses c.profile i st) s
      (outcome (execute c i rest s command)) := by
  -- most commands have no flags to use
  have hother : command.usesFlags = false →
      Written (fun st => usesFlag st = true → Uses c.profile i st) s
        (outcome (execute c i rest s command)) := by
    intro hcommand
    have hplain : Written (fun st => usesFlag st = false) s
        (outcome (execute c i rest s command)) := by
      cases hexec : execute c i rest s command with
      | ok s' =>
        exact (execute_acts (fun st => usesFlag_of_writes hcommand)
          (fun _ _ _ => rfl) hexec).written
      -- a command without flags that halts has written at most what it may write
      | error halt => exact execute_error_written (fun st => usesFlag_of_writes hcommand) hexec
    refine hplain.mono fun st hst h => ?_
    rw [hst] at h
    cases h
  cases command with
  | branch b =>
    have hcond : i.mnemonic.isConditional = true := isFrom_of_command hread
    obtain ⟨cmp, hcmp⟩ := Option.isSome_iff_exists.mp hcond
    obtain ⟨flag, value, hflag, hvalue, hbranch⟩ :=
      reading_of_comparison hmet hcmp (of_branch hread).1
    rw [hread] at hbranch
    obtain ⟨cmp', flag', value', close⟩ := b
    obtain ⟨rfl, rfl, rfl, -⟩ := Branch.mk.inj (Command.branch.inj (Reading.command.inj hbranch))
    exact .one (uses_ifStatement hcmp hflag hvalue) (statements_branch c s _)
  | assign flag op source =>
    have hop : ∃ op', i.mnemonic.assignOp? = some op' := by
      have hfrom := isFrom_of_command hread
      generalize i.mnemonic = m at hfrom
      cases m with
      | mov | add | sub | movf | mod => exact ⟨_, rfl⟩
      | _ => cases hfrom
    obtain ⟨op', hop⟩ := hop
    obtain ⟨flag', operand, hflag, hoperand, hassign⟩ := reading_of_assignOp hmet hop
    rw [hread] at hassign
    split at hassign
    · split at hassign <;> cases hassign
    · next hreveal =>
      obtain ⟨rfl, rfl, rfl⟩ := Command.assign.inj (Reading.command.inj hassign)
      refine ⟨_, statements_assign c s flag op _, fun st hst _ => ?_⟩
      exact uses_assignStatement? hop hflag hoperand hreveal (Option.mem_toList.mp hst)
  | random flag max =>
    have hrnd : i.mnemonic = .rnd := by
      have hfrom := isFrom_of_command hread
      generalize i.mnemonic = m at hfrom
      cases m with
      | rnd => rfl
      | _ => cases hfrom
    obtain ⟨flag', max', hflag, hmax, hrandom⟩ := reading_of_rnd hmet hrnd
    rw [hread] at hrandom
    obtain ⟨rfl, rfl⟩ := Command.random.inj (Reading.command.inj hrandom)
    refine ⟨_, statements_assignRandom c s flag max, fun st hst _ => ?_⟩
    exact uses_randomStatement? hrnd hflag hmax (Option.mem_toList.mp hst)
  | menu choices =>
    have hoption : i.mnemonic = .option := mnemonic_of_menu (isFrom_of_command hread)
    obtain ⟨choices', hchoices, hmenu⟩ := reading_of_option hmet hoption
    rw [hread] at hmenu
    obtain rfl := Command.menu.inj (Reading.command.inj hmenu)
    cases hexec : execute c i rest s (.menu choices) with
    | ok s' =>
      obtain ⟨line, hline, heq⟩ := statements_menu hmove hexec
      exact ⟨_, heq, fun st hst h => uses_of_mem_menu hoption hchoices hline hst h⟩
    | error halt =>
      show Written _ s halt.state
      have hhalted := halted_of_error hexec
      generalize halt.state = t at hhalted ⊢
      cases hhalted with
      | stage g => exact .none rfl
      | menu => exact .one (fun h => (by cases h)) (s.document.statements_header .menu)
  | _ => exact hother rfl

/-! ## Steps and runs -/

theorem allowedBefore_usesFlag (c : Context) : AllowedBefore c fun st => usesFlag st = false where
  pass := rfl
  skip := fun _ st hst => by
    cases st with
    | ifFlag | assign | choice => cases hst
    | _ => rfl
  label := fun _ => rfl

theorem statements_announce (s : State) (i : Instruction) :
    (announce c s i).document.statements = s.document.statements :=
  congrArg (List.map Renpy.Row.statement) (rows_announce s i)

/-- Only a line of dialogue waits for a menu, and only if lines are moved. -/
theorem held_announce_arrive (hmove : c.profile.moveSayIntoMenu = false → s.held = none)
    (hmoved : c.profile.moveSayIntoMenu = false) :
    (announce c (s.arrive c i rest) i).held = none := by
  have hwaits : waitsForMenu c i rest = false := by simp [waitsForMenu, hmoved]
  have hheld : (announce c (s.arrive c i rest) i).held = if waitsForMenu c i rest then some i
      else s.held :=
    congrArg Memory.held (memory_announce_arrive (c := c) s i rest)
  rw [hheld, hwaits]
  exact hmove hmoved

/-- What a step writes uses flags only as its instruction asks. -/
theorem uses_step (hmet : ∀ need ∈ i.mnemonic.needs, need.Met i) (hi : i ∈ c.instructions)
    (hmove : c.profile.moveSayIntoMenu = false → s.held = none) (rest : List Instruction) :
    Written (fun st => usesFlag st = true → Uses c.profile i st) s (outcome (step c s i rest)) := by
  have hplain : ∀ st, usesFlag st = false → usesFlag st = true → Uses c.profile i st := by
    intro st hfalse htrue
    rw [hfalse] at htrue
    cases htrue
  have harrive : Written (fun st => usesFlag st = true → Uses c.profile i st) s
      (s.arrive c i rest) :=
    (arrive_acts (allowedBefore_usesFlag c) hi rest).written.mono hplain
  have hannounce : Written (fun st => usesFlag st = true → Uses c.profile i st) s
      (announce c (s.arrive c i rest) i) := harrive.trans (.none (statements_announce ..))
  have hends := stepEnds_outcome c s i rest
  generalize outcome (step c s i rest) = t at hends ⊢
  cases hends with
  | ending =>
    refine Written.mono ?_ hplain
    exact .closeBranches_placeLabel (P := fun st => usesFlag st = false) rfl rfl s
  | unhandled => exact harrive.trans (.none (Document.statements_comment ..))
  | malformed => exact hannounce
  | command _ hread =>
    exact hannounce.trans (uses_execute hmet hread (held_announce_arrive hmove) rest)

/-- Where lines are not moved, none waits for a menu. -/
theorem held_of_reached (h : Reached c rest s) (hmoved : c.profile.moveSayIntoMenu = false) :
    s.held = none := by
  obtain ⟨before, told, htold, -⟩ := menus_of_reached h
  exact htold.held_eq_none hmoved

/-- All that is written for a script uses flags only as one of its instructions asks. -/
theorem Runs.uses (hmet : ∀ i ∈ c.instructions, ∀ need ∈ i.mnemonic.needs, need.Met i)
    (h : Reached c rest s) :
    ∀ st ∈ s.document.statements, usesFlag st = true → ∃ i ∈ c.instructions,
      Uses c.profile i st := by
  induction h with
  | here =>
    intro st hst huses
    have hlabel : (start c).document.statements = [.label (.script c.name)] := rfl
    rw [hlabel] at hst
    rw [List.mem_singleton.mp hst] at huses
    cases huses
  | @step i rest t t' hruns hstep ih =>
    have hi : i ∈ c.instructions := Runs.mem hruns
    obtain ⟨added, hadded, huses⟩ := uses_step (hmet i hi) hi (held_of_reached hruns) rest
    rw [hstep] at hadded
    intro st hst h
    rw [show t'.document.statements = t.document.statements ++ added from hadded] at hst
    rcases List.mem_append.mp hst with hst | hst
    · exact ih st hst h
    · exact ⟨i, hi, huses st hst h⟩

/-- By induction on the run, since each step is made of acts. -/
theorem Runs.ready (h : Reached c rest s) : Ready c s := by
  induction h with
  | here => exact ready_start
  | @step i rest t t' hruns hstep ih =>
    have hi : i ∈ c.instructions := Runs.mem hruns
    exact (step_acts (allowed_all c) hi hstep).preserves (fun hact ht => Ready.act ht hact) ih

/-- A step gets through and writes some statements for its instruction. -/
def Appends (c : Context) (s : State) (i : Instruction) (rest : List Instruction)
    (added : List Statement) (s' : State) : Prop :=
  step c s i rest = .ok s' ∧
    s'.document.statements = (s.arrive c i rest).document.statements ++ added

/-- The command of an instruction is carried out after the announcement. -/
theorem appends_of_execute {command : Command} {added : List Statement}
    (hread : Reading.ofInstruction i = .command command)
    (hexec : execute c i rest (announce c (s.arrive c i rest) i) command = .ok s')
    (hadded : s'.document.statements
      = (announce c (s.arrive c i rest) i).document.statements ++ added) :
    Appends c s i rest added s' := by
  refine ⟨(step_of_reading hread s rest).trans hexec, ?_⟩
  rw [hadded, statements_announce]

section

variable (hmet : ∀ need ∈ i.mnemonic.needs, need.Met i)

include hmet

/-- A branch never halts, and opens a block that closes where it leads to. -/
theorem appends_of_comparison {cmp : Comparison} {close : Nat}
    (hcmp : i.mnemonic.comparison? = some cmp) (hclose : i.close? = some close) (s : State)
    (rest : List Instruction) :
    ∃ flag value s', i.int? 0 = some flag ∧ i.int? 1 = some value ∧
      Appends c s i rest [ifStatement c.profile cmp flag value] s' ∧
      s'.scopeEnds = close :: (s.arrive c i rest).scopeEnds ∧
      s'.document.depth = (s.arrive c i rest).document.depth + 1 := by
  obtain ⟨flag, value, hflag, hvalue, hread⟩ := reading_of_comparison hmet hcmp hclose
  refine ⟨flag, value, _, hflag, hvalue, appends_of_execute hread rfl (statements_branch ..), ?_⟩
  have hannounce :=
    Acts.within (c := c) (P := fun _ => False) id (announce_acts (s := s.arrive c i rest) i)
  obtain ⟨t, st, hwithin, -, -, heq⟩ :=
    branch_eq c (announce c (s.arrive c i rest) i) ⟨cmp, flag, value, close⟩
  rw [heq]
  constructor
  · show close :: (announce c (s.arrive c i rest) i).scopeEnds = _
    rw [hannounce.ends]
  · show (t.document.header st).depth = _
    rw [Document.depth_header, hwithin.document.depth_eq, hannounce.document.depth_eq]

/-- Nor does an assignment; that to the flag of the text speed is not written. -/
theorem appends_of_assignOp {op : AssignOp} (hop : i.mnemonic.assignOp? = some op) (s : State)
    (rest : List Instruction) :
    ∃ flag operand s', i.int? 0 = some flag ∧ i.int? 2 = some operand ∧
      Appends c s i rest
        (if i.mnemonic = .mov ∧ flag = revealFlag then []
        else (assignStatement? c.profile flag op (.ofLevel operand i.level)).toList) s' := by
  obtain ⟨flag, operand, hflag, hoperand, hread⟩ := reading_of_assignOp hmet hop
  by_cases hreveal : i.mnemonic = .mov ∧ flag = revealFlag
  · have hremark : ∀ (t : State) r, (t.remark r).document.statements
        = t.document.statements ++ [] :=
      fun t r => (t.document.statements_comment r).trans (List.append_nil _).symm
    have hnothing : ∃ s', Appends c s i rest [] s' := by
      rw [if_pos hreveal] at hread
      split at hread
      · exact ⟨_, appends_of_execute hread rfl (hremark ..)⟩
      · exact ⟨_, appends_of_execute hread rfl (hremark ..)⟩
    obtain ⟨s', happends⟩ := hnothing
    exact ⟨flag, operand, s', hflag, hoperand, by rw [if_pos hreveal]; exact happends⟩
  · rw [if_neg hreveal] at hread
    have happends : Appends c s i rest
        (assignStatement? c.profile flag op (.ofLevel operand i.level)).toList _ :=
      appends_of_execute hread rfl (statements_assign ..)
    exact ⟨flag, operand, _, hflag, hoperand, by rw [if_neg hreveal]; exact happends⟩

theorem appends_of_rnd (hrnd : i.mnemonic = .rnd) (s : State) (rest : List Instruction) :
    ∃ flag max s', i.int? 0 = some flag ∧ i.int? 2 = some max ∧
      Appends c s i rest (randomStatement? c.profile flag max).toList s' := by
  obtain ⟨flag, max, hflag, hmax, hread⟩ := reading_of_rnd hmet hrnd
  exact ⟨flag, max, _, hflag, hmax, appends_of_execute hread rfl (statements_assignRandom ..)⟩

end

/-- The line that waits for a menu can be said, so the menu is written. -/
theorem appends_of_option (hmet : ∀ i ∈ c.instructions, ∀ need ∈ i.mnemonic.needs, need.Met i)
    (h : Reached c (i :: rest) s) (hoption : i.mnemonic = .option) :
    ∃ choices line s', i.options? = some choices ∧ List.Forall₂ (Voices c) s.held.toList line ∧
      Appends c s i rest (.menu :: blockStatements (line ++ choices.flatMap (choiceStatements c)))
        s' := by
  have hi : i ∈ c.instructions := Runs.mem h
  obtain ⟨choices, hchoices, hread⟩ := reading_of_option (hmet i hi) hoption
  have hheld : (announce c (s.arrive c i rest) i).held = s.held := by
    have hmemory := congrArg Memory.held (memory_announce_arrive (c := c) s i rest)
    rw [waitsForMenu_of_not_isSay (by rw [hoption]; rfl)] at hmemory
    exact hmemory
  have hsayable : ∀ j, (announce c (s.arrive c i rest) i).held = some j → Sayable j := by
    intro j hj
    obtain ⟨hmem, hsay⟩ := (Runs.ready h).held j (hheld ▸ hj)
    exact ⟨hsay, utterance?_isSome (hmet j hmem) hsay⟩
  cases hexec : menu c (announce c (s.arrive c i rest) i) choices with
  | error halt => exact absurd hexec (menu_ne_error hsayable choices halt)
  | ok s' =>
    obtain ⟨line, hline, hadded⟩ :=
      statements_menu (fun hmoved => hheld.trans (held_of_reached h hmoved)) hexec
    rw [hheld] at hline
    exact ⟨choices, line, s', hchoices, hline, appends_of_execute hread hexec hadded⟩

end Screenplay

open Screenplay

/-- Flags that a script may not use are neither read nor written. The instructions that use flags
become what their references allow, whatever the state of the run, and all other statements use
none. -/
theorem transpile_flags (name : String) (script : List UInt8) (profile : Profile) :
    let c := scriptContext name script profile
    (∀ flag : Int, flag < 0x100000000 →
      (profile.reference? flag = none ↔ flag < 0 ∨
        (∀ bank ∈ profile.flagBanks, bank.contains flag.toNat = false) ∨
        ∃ entry, profile.flag? flag.toNat = some entry ∧ entry.policy ≠ .allow)) ∧
    (∀ i rest s, Reached c (i :: rest) s →
      (∀ cmp close, i.mnemonic.comparison? = some cmp → i.close? = some close →
        ∃ flag value s', i.int? 0 = some flag ∧ i.int? 1 = some value ∧
          Appends c s i rest [ifStatement profile cmp flag value] s' ∧
          s'.scopeEnds = close :: (s.arrive c i rest).scopeEnds ∧
          s'.document.depth = (s.arrive c i rest).document.depth + 1) ∧
      (∀ op, i.mnemonic.assignOp? = some op →
        ∃ flag operand s', i.int? 0 = some flag ∧ i.int? 2 = some operand ∧
          Appends c s i rest
            (if i.mnemonic = .mov ∧ flag = revealFlag then []
            else (assignStatement? profile flag op (.ofLevel operand i.level)).toList) s') ∧
      (i.mnemonic = .rnd →
        ∃ flag max s', i.int? 0 = some flag ∧ i.int? 2 = some max ∧
          Appends c s i rest (randomStatement? profile flag max).toList s') ∧
      (i.mnemonic = .option →
        ∃ choices line s', i.options? = some choices ∧ List.Forall₂ (Voices c) s.held.toList line ∧
          Appends c s i rest (.menu :: blockStatements
            (line ++ choices.flatMap (choiceStatements c))) s')) ∧
    ∀ st ∈ (transpile name script profile).document.statements, usesFlag st = true →
      ∃ i ∈ Bytecode.decode profile.version true script, Uses profile i st := by
  intro c
  have hmet := Bytecode.decode_meets profile.version script
  refine ⟨fun flag hflag => reference?_eq_none_iff profile hflag, fun i rest s hs => ?_, ?_⟩
  · have hi : i ∈ c.instructions := Runs.mem hs
    exact ⟨fun cmp close hcmp hclose => appends_of_comparison (hmet i hi) hcmp hclose s rest,
      fun op hop => appends_of_assignOp (hmet i hi) hop s rest,
      fun hrnd => appends_of_rnd (hmet i hi) hrnd s rest,
        fun hoption => appends_of_option hmet hs hoption⟩
  · intro st hst huses
    obtain ⟨hok, herror⟩ := reached_of_run c
    cases hrun : scriptRun name script profile with
    | ok final =>
      rw [(transpile_of_ok hrun).2] at hst
      -- closing adds `pass`, which uses no flag
      obtain ⟨n, hclosed⟩ := final.document.statements_closeAll
      rw [hclosed] at hst
      rcases List.mem_append.mp hst with hst | hst
      · exact Runs.uses hmet (hok final hrun) st hst huses
      · rw [List.eq_of_mem_replicate hst] at huses
        cases huses
    | error stopped =>
      obtain ⟨stop, halt⟩ := stopped
      obtain ⟨i, rest, s, hs, hstep⟩ := herror stop halt hrun
      have hi : i ∈ c.instructions := Runs.mem hs
      -- a run that halts has written what its last instruction came to, and the report
      obtain ⟨added, hadded, hasked⟩ := uses_step (hmet i hi) hi (held_of_reached hs) rest
      rw [hstep] at hadded
      change halt.state.document.statements = s.document.statements ++ added at hadded
      rw [(transpile_of_error hrun).2, Document.statements_statement, Document.statements_comment,
        hadded] at hst
      rcases List.mem_append.mp hst with hst | hst
      · rcases List.mem_append.mp hst with hst | hst
        · exact Runs.uses hmet hs st hst huses
        · exact ⟨i, hi, hasked st hst huses⟩
      · rw [List.mem_singleton.mp hst] at huses
        cases huses

/-- A profile that keeps scripts from using one flag. -/
def keepsFlagFive : Profile :=
  { flags := [(5, { policy := .exclude })] }

/-- A branch on that flag over a pause, and another flag that is set to it. -/
def forbiddenFlag : List UInt8 :=
  [0x01, 3, 5, 0, 0, 0, 4, 0, 0, 0, 0, 0x82, 100, 0, 0, 0x03, 1, 1, 0, 1, 5, 0, 0]

/-- The graph of the script: the branch, the pause, and the assignment. -/
theorem build_forbiddenFlag :
    BlockGraph.build (Bytecode.decode keepsFlagFive.version true forbiddenFlag)
      = ⟨[⟨0, some 11, .conditional, some 11, some 15, [], []⟩,
          ⟨11, some 15, .linear, some 15, none, [], [0]⟩,
          ⟨15, some 23, .linear, none, none, [], [0]⟩]⟩ :=
  BlockGraph.build_eq_of_perm (by decide +kernel) (by decide)

/-- The branch becomes `if False:`, with its block, and the assignment nothing. -/
theorem flags_of_forbiddenFlag :
    let c := scriptContext "a" forbiddenFlag keepsFlagFive
    (∃ i rest s s', Reached c (i :: rest) s ∧ i.addr = 0 ∧ Appends c s i rest [.ifFalse] s' ∧
        s'.scopeEnds = 15 :: (s.arrive c i rest).scopeEnds) ∧
      ∃ i rest s s', Reached c (i :: rest) s ∧ i.addr = 15 ∧ Appends c s i rest [] s' := by
  intro c
  have hcomplete : (transpile "a" forbiddenFlag keepsFlagFive).isComplete = true := by
    rw [(transpile_of_build "a" forbiddenFlag keepsFlagFive build_forbiddenFlag).2]
    decide +kernel
  have hnone : keepsFlagFive.reference? 5 = none := by decide +kernel
  obtain ⟨-, hflags, -⟩ := transpile_flags "a" forbiddenFlag keepsFlagFive
  constructor
  · have heq : Bytecode.decode keepsFlagFive.version true forbiddenFlag
        = [] ++ ⟨0, 11, some 1, .jeq, [.int 5, .int 0, .int 4]⟩
          :: (Bytecode.decode keepsFlagFive.version true forbiddenFlag).drop 1 := by decide +kernel
    obtain ⟨s, hs⟩ := exists_reached_of_append hcomplete heq
    obtain ⟨flag, value, s', hflag, -, happends, hends, -⟩ :=
      (hflags _ _ s hs).1 .eq 15 rfl (by decide +kernel)
    obtain rfl : 5 = flag := Option.some.inj hflag
    unfold ifStatement at happends
    rw [hnone] at happends
    exact ⟨_, _, s, s', hs, rfl, happends, hends⟩
  · have heq : Bytecode.decode keepsFlagFive.version true forbiddenFlag
        = (Bytecode.decode keepsFlagFive.version true forbiddenFlag).take 2 ++
          ⟨15, 8, some 3, .mov, [.int 1, .int 1, .int 5]⟩
          :: (Bytecode.decode keepsFlagFive.version true forbiddenFlag).drop 3 := by decide +kernel
    obtain ⟨s, hs⟩ := exists_reached_of_append hcomplete heq
    obtain ⟨flag, operand, s', hflag, hoperand, happends⟩ := (hflags _ _ s hs).2.1 .set rfl
    obtain rfl : 1 = flag := Option.some.inj hflag
    obtain rfl : 5 = operand := Option.some.inj hoperand
    have hnothing : assignStatement? keepsFlagFive 1 .set (.flag 5) = none := by
      simp [assignStatement?, Source.text?, hnone]
    rw [if_neg (by decide)] at happends
    change Appends c s _ _ (assignStatement? keepsFlagFive 1 .set (.flag 5)).toList s' at happends
    rw [hnothing] at happends
    exact ⟨_, _, s, s', hs, rfl, happends⟩

end Rio
