import Rio.Proofs.Literal.Escaping
import Rio.Proofs.Literal.Words
import Rio.Json.Basic
import Rio.Transpile

/-!
# The lines of a listing

A listing has a line for each instruction, and nothing that an instruction holds may add another
one. Text is decoded and quoted, and quoted text has its line breaks escaped; all else on a line
is a word or a mark:

> `oneLine_listing`: an instruction is listed on one line, whatever the script holds.

So a listing can be taken apart again. `ListedLine.read?` reads what a line says, and
`disassemble_lines` puts it together for the listings of whole scripts.
-/

namespace Rio.Literal

variable {s t : String}

/-- A text without a line break. -/
def OneLine (s : String) : Prop :=
  '\n' ∉ s.toList

instance (s : String) : Decidable (OneLine s) :=
  inferInstanceAs (Decidable (¬ '\n' ∈ s.toList))

/-- A literal is taken apart into its characters when this is applied to it. -/
theorem oneLine_ofList {cs : List Char} (h : cs.elem '\n' = false) :
    OneLine (String.ofList cs) := by
  show '\n' ∉ (String.ofList cs).toList
  rw [String.toList_ofList]
  simpa using h

/-- A text is one line if and only if its parts are. -/
theorem oneLine_append_iff : OneLine (s ++ t) ↔ OneLine s ∧ OneLine t := by
  show '\n' ∉ (s ++ t).toList ↔ '\n' ∉ s.toList ∧ '\n' ∉ t.toList
  rw [String.toList_append, List.mem_append, not_or]

theorem OneLine.append (hs : OneLine s) (ht : OneLine t) : OneLine (s ++ t) :=
  oneLine_append_iff.mpr ⟨hs, ht⟩

/-- A line break is no character of a word. -/
theorem IsWord.oneLine (h : IsWord s) : OneLine s := by
  intro hmem
  have hword := h.isWordChar hmem
  revert hword
  decide

theorem oneLine_join {l : List String} (h : ∀ s ∈ l, OneLine s) : OneLine (String.join l) := by
  show '\n' ∉ (String.join l).toList
  rw [String.toList_join]
  intro hmem
  obtain ⟨s, hs, hbreak⟩ := List.mem_flatMap.mp hmem
  exact h s hs hbreak

theorem oneLine_intercalate (hs : OneLine s) {l : List String} (h : ∀ t ∈ l, OneLine t) :
    OneLine (s.intercalate l) := by
  induction l with
  | nil =>
    rw [String.intercalate_nil]
    exact oneLine_ofList rfl
  | cons t l ih =>
    cases l with
    | nil =>
      rw [String.intercalate_singleton]
      exact h t List.mem_cons_self
    | cons u l =>
      rw [String.intercalate_cons_cons]
      exact ((h t List.mem_cons_self).append hs).append
        (ih fun v hv => h v (List.mem_cons_of_mem _ hv))

/-! ## Listings -/

/-- A line break in quoted text is written by its escape. -/
theorem oneLine_quoteChar (c : Char) : OneLine (quoteChar c) := by
  unfold quoteChar
  split
  · exact oneLine_ofList rfl
  · split
    · exact oneLine_ofList rfl
    · split
      · exact oneLine_ofList rfl
      · split
        · exact oneLine_ofList rfl
        · next hbreak =>
          -- only a character that stands for itself needs that it is not the line break
          split
          · exact oneLine_ofList rfl
          · split
            · exact oneLine_ofList rfl
            · split
              · exact (OneLine.append (oneLine_ofList rfl) (isWord_hex _).oneLine).append
                  (oneLine_ofList rfl)
              · simp at hbreak
                simp [OneLine, Ne.symm hbreak]

/-- Quoting escapes line breaks. -/
theorem oneLine_quoted (s : String) : OneLine (quoted s) := by
  refine (OneLine.append (oneLine_ofList rfl) (oneLine_join ?_)).append (oneLine_ofList rfl)
  intro t ht
  obtain ⟨c, -, rfl⟩ := List.mem_map.mp ht
  exact oneLine_quoteChar c

end Rio.Literal

namespace Rio

open Literal

/-- The texts of a choice are quoted. -/
theorem oneLine_menuOption (charset : Charset) (readers : Charset.Readers) (o : MenuOption) :
    OneLine (o.listing charset readers) := by
  refine (OneLine.append (oneLine_ofList rfl) (oneLine_intercalate (oneLine_ofList rfl) ?_)).append
    (oneLine_ofList rfl)
  intro t ht
  simp only [List.mem_cons, List.not_mem_nil, or_false] at ht
  rcases ht with rfl | rfl | rfl | rfl | rfl | rfl
  · exact (isWord_intToString _).oneLine
  · exact oneLine_quoted _
  · exact (isWord_toString _).oneLine
  · exact (isWord_toString _).oneLine
  · exact (isWord_toString _).oneLine
  · exact oneLine_quoted _

/-- An operand is a word, a quoted text or a list of choices. -/
theorem oneLine_operand (charset : Charset) (readers : Charset.Readers) (o : Operand) :
    OneLine (o.listing charset readers) := by
  cases o with
  | int value => exact (isWord_intToString value).oneLine
  | bytes raw => exact oneLine_quoted _
  | transition t => exact oneLine_quoted _
  | options choices =>
    refine oneLine_intercalate (oneLine_ofList rfl) fun t ht => ?_
    obtain ⟨o, -, rfl⟩ := List.mem_map.mp ht
    exact oneLine_menuOption charset readers o

/-- A listing is one line, whatever the script holds. -/
theorem oneLine_listing (charset : Charset) (readers : Charset.Readers) (i : Instruction) :
    OneLine (i.listing charset readers) := by
  have hoperands : OneLine (", ".intercalate (i.operands.map (·.listing charset readers))) := by
    refine oneLine_intercalate (oneLine_ofList rfl) fun t ht => ?_
    obtain ⟨o, -, rfl⟩ := List.mem_map.mp ht
    exact oneLine_operand charset readers o
  have hname : OneLine (Numeral.hexLiteral i.addr ++ ":" ++ i.mnemonic.name ++ "(") :=
    (((isWord_hexLiteral _).oneLine.append (oneLine_ofList rfl)).append
      (isWord_mnemonic _).oneLine).append
      (oneLine_ofList rfl)
  exact (hname.append hoperands).append (oneLine_ofList rfl)

/-! ## Reading lines -/

/-- What a line of a listing says. -/
structure ListedLine where
  addr : Nat
  mnemonic : List Char
  /-- What stands between the parentheses. -/
  operands : List Char
deriving Repr, DecidableEq

namespace ListedLine

/-- The number that hexadecimal digits stand for. -/
def hexValue? (digits : List Char) : Option Nat :=
  digits.foldlM (fun n c => (Json.hexDigit? c).map (16 * n + ·)) 0

/-- What stands before the first occurrence of a mark, and what behind it. -/
def cut? (mark : Char) (cs : List Char) : Option (List Char × List Char) :=
  match cs.dropWhile (· != mark) with
  | [] => none
  | _ :: rest => some (cs.takeWhile (· != mark), rest)

/-- Reads a line `0x<address>:<mnemonic>(<operands>)`. -/
def read? : List Char → Option ListedLine
  | '0' :: 'x' :: cs => do
    let (digits, rest) ← cut? ':' cs
    let (mnemonic, operands) ← cut? '(' rest
    if operands.getLast? == some ')' then return ⟨← hexValue? digits, mnemonic, operands.dropLast⟩
    else none
  | _ => none

/-- The cut is at the first mark. -/
theorem cut?_append {mark : Char} {front : List Char} (h : mark ∉ front) (rest : List Char) :
    cut? mark (front ++ mark :: rest) = some (front, rest) := by
  unfold cut?
  rw [Literal.dropWhile_cut h, Literal.takeWhile_cut h]

/-- An address is read back from its digits. -/
theorem hexValue?_toDigits (n : Nat) : hexValue? (Nat.toDigits 16 n) = some n := by
  have hdigit : ∀ d < 16, Json.hexDigit? d.digitChar = some d := by decide
  induction n using Nat.strongRecOn with
  | ind n ih =>
    rw [Nat.toDigits_eq_if (by decide)]
    split
    · next hlt => simp [hexValue?, hdigit n hlt]
    · have hdiv : hexValue? (Nat.toDigits 16 (n / 16)) = some (n / 16) :=
        ih _ (Nat.div_lt_self (by omega) (by decide))
      unfold hexValue? at hdiv ⊢
      rw [List.foldlM_append, hdiv]
      simp [hdigit (n % 16) (Nat.mod_lt _ (by decide)), Nat.div_add_mod]

/-- A line is read as what it was put together from. -/
theorem read?_of_notMem {name : List Char} (hname : '(' ∉ name) (addr : Nat)
    (operands : List Char) :
    read? ('0' :: 'x' :: (Nat.toDigits 16 addr ++ ':' :: (name ++ '(' :: (operands ++ [')']))))
      = some ⟨addr, name, operands⟩ := by
  have hdigits : ':' ∉ Nat.toDigits 16 addr := by
    intro hmem
    have hword := List.all_eq_true.mp (Literal.all_toDigits (by decide) (by decide) addr) ':' hmem
    revert hword
    decide
  show (cut? ':' _).bind _ = _
  rw [cut?_append hdigits, Option.bind_some]
  dsimp only
  rw [cut?_append hname]
  simp [hexValue?_toDigits]

end ListedLine

/-- A listing is its address, a colon, its name, and its operands in brackets. -/
theorem toList_listing (charset : Charset) (readers : Charset.Readers) (i : Instruction) :
    (i.listing charset readers).toList
      = '0' :: 'x' :: (Nat.toDigits 16 i.addr ++ ':' :: (i.mnemonic.name.toList ++
      '(' :: ((", ".intercalate (i.operands.map (·.listing charset readers))).toList
        ++ [')']))) := by
  unfold Instruction.listing Numeral.hexLiteral Numeral.hex
  simp

/-- These parts are read back: neither digits nor names have a mark in them. -/
theorem read?_listing (charset : Charset) (readers : Charset.Readers) (i : Instruction) :
    ListedLine.read? (i.listing charset readers).toList = some
      ⟨i.addr, i.mnemonic.name.toList,
        (", ".intercalate (i.operands.map (·.listing charset readers))).toList⟩ := by
  rw [toList_listing]
  refine ListedLine.read?_of_notMem (fun hmem => ?_) _ _
  have hword := (isWord_mnemonic i.mnemonic).isWordChar hmem
  revert hword
  decide

/-! ## Whole listings -/

/-- Lines that are put one after another are found again at their ends. -/
theorem splitOn_lines {lines : List (List Char)} (h : ∀ line ∈ lines, '\n' ∉ line) :
    (lines.flatMap (· ++ ['\n'])).splitOn '\n' = lines ++ [[]] := by
  induction lines with
  | nil => rfl
  | cons line lines ih =>
    obtain ⟨hline, hlines⟩ := List.forall_mem_cons.mp h
    rw [List.flatMap_cons, List.append_assoc, List.singleton_append,
      List.splitOn_append_cons_self_of_not_mem hline, ih hlines, List.cons_append]

/-- Each line ends in the one line break that it has. -/
theorem count_lines {lines : List (List Char)} (h : ∀ line ∈ lines, '\n' ∉ line) :
    (lines.flatMap (· ++ ['\n'])).count '\n' = lines.length := by
  induction lines with
  | nil => rfl
  | cons line lines ih =>
    obtain ⟨hline, hlines⟩ := List.forall_mem_cons.mp h
    have hbreak : ['\n'].count '\n' = 1 := rfl
    rw [List.flatMap_cons, List.count_append, List.count_append, List.count_eq_zero.mpr hline,
      hbreak, ih hlines, List.length_cons]
    omega

/-- The listing of a script is one line for each of its instructions, each ended by a line break,
and has no other line breaks. So its lines are found again, and each is read as the address, the
mnemonic and the operands of its instruction. -/
theorem disassemble_lines (script : List UInt8) (profile : Profile) :
    let instructions := Bytecode.decode profile.version true script
    let operands (i : Instruction) :=
      ", ".intercalate (i.operands.map (·.listing profile.charset profile.readers))
    let line (i : Instruction) :=
      ("0x" ++ Numeral.hex i.addr ++ ":" ++ i.mnemonic.name ++ "(" ++ operands i ++ ")").toList
    let text := (disassemble script profile).toList
    text = instructions.flatMap (fun i => line i ++ ['\n']) ∧
    (∀ i ∈ instructions, '\n' ∉ line i) ∧ text.count '\n' = instructions.length ∧
    text.splitOn '\n' = instructions.map line ++ [[]] ∧
    (text.splitOn '\n').dropLast.map ListedLine.read?
      = instructions.map fun i => some ⟨i.addr, i.mnemonic.name.toList, (operands i).toList⟩ := by
  intro instructions operands line text
  have hline : ∀ i ∈ instructions, '\n' ∉ line i :=
    fun i _ => oneLine_listing profile.charset profile.readers i
  have hlines : ∀ l ∈ instructions.map line, '\n' ∉ l := List.forall_mem_map.mpr hline
  have htext : text = (instructions.map line).flatMap (· ++ ['\n']) := by
    show (String.join _).toList = _
    rw [String.toList_join, List.flatMap_map, List.flatMap_map]
    simp only [String.toList_append]
    rfl
  have hsplit : text.splitOn '\n' = instructions.map line ++ [[]] := by
    rw [htext, splitOn_lines hlines]
  refine ⟨?_, hline, ?_, hsplit, ?_⟩
  · rw [htext, List.flatMap_map]
  · rw [htext, count_lines hlines, List.length_map]
  · rw [hsplit, List.dropLast_concat, List.map_map]
    refine List.map_congr_left fun i _ => ?_
    have hlisting : line i = (i.listing profile.charset profile.readers).toList := rfl
    rw [Function.comp_apply, hlisting, read?_listing]

/-- A menu with a line break in the wording of its choice. -/
example : disassemble [0x02, 1, 0, 1, 0, 0x61, 0x0a, 0x62, 0, 0, 5, 0, 0, 0x63, 0] {}
    = "0x0:option((1, \"a\\nb\", 0, 5, 0, \"c\"))\n0xf:EOF()\n" := by
  decide +kernel

end Rio
