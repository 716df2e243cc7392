import Rio.Companion
import Rio.Profile.Access
import Rio.Profile.Load
import Rio.Proofs.Bytecode.Listing
import Rio.Proofs.Renpy.Indentation

/-!
# Telling flags apart

A flag is written as a place in its bank, by name if it has one and by address otherwise. Nothing
keeps a title from giving one name to two flags, which are one place then. Apart from that flags
stay apart:

> `flags_told_apart`: different flags are written alike just if both have names and the names are
> written alike. The table of names is by address, and gives the last flag with a name.

Addresses are found again behind the last bracket, whatever the bank is (`addressed_inj`), and end
in a digit, where a name ends in a quote (`named_ne_addressed`). Bank and name are put together
without escapes, so a bank whose own name looks like a place in another bank is the one other way
to write two names alike (`WrittenAlike`).

A table is read line by line. Names are not escaped in it, so it is read back if none of them has
to be (`readTable?_flagNames`); it is then a list by increasing address since the flags of a
loaded profile are one (`increasing_flags_of_ofJson?`).
-/

namespace Rio

/-! ## Expressions -/

/-- Whether two names in banks are written alike: they are one name in banks of one name, or one
bank is written as the other one with the start of the name in it. -/
def WrittenAlike (bank name bank' name' : String) : Prop :=
  (bank = bank' ∧ name = name') ∨
  (∃ start, bank = bank' ++ "['" ++ start ∧ name' = start ++ "['" ++ name) ∨
  ∃ start, bank' = bank ++ "['" ++ start ∧ name = start ++ "['" ++ name'

section Marks

variable {front front' back back' : List Char}

/-- The part behind the last mark is the same in equal texts. -/
theorem eq_of_append_mark_eq {mark : Char} (hback : mark ∉ back) (hback' : mark ∉ back')
    (h : front ++ mark :: back = front' ++ mark :: back') : back = back' := by
  -- if one front were longer, its mark would stand behind the mark of the other one
  obtain ⟨t, -, ht⟩ | ⟨t, -, ht⟩ := List.append_eq_append_iff.mp h
  · cases t with
    | nil => exact (List.cons.inj ht).2
    | cons c t =>
      exact absurd ((List.cons.inj ht).2 ▸ List.mem_append_right t List.mem_cons_self) hback
  · cases t with
    | nil => exact (List.cons.inj ht).2.symm
    | cons c t =>
      exact absurd ((List.cons.inj ht).2 ▸ List.mem_append_right t List.mem_cons_self) hback'

/-- Two marks of two different characters are the same one, or they do not overlap. -/
theorem mark_cases {c d : Char} (hne : c ≠ d) {t : List Char}
    (h : c :: d :: back = t ++ c :: d :: back') :
    (t = [] ∧ back = back') ∨ ∃ start, t = c :: d :: start ∧ back = start ++ c :: d :: back' := by
  cases t with
  | nil => exact .inl ⟨rfl, (List.cons.inj (List.cons.inj h).2).2⟩
  | cons x t =>
    obtain ⟨rfl, htail⟩ := List.cons.inj h
    cases t with
    | nil =>
      -- the second mark would begin where the first one ends
      exact absurd (List.cons.inj htail).1.symm hne
    | cons y start =>
      obtain ⟨rfl, hback⟩ := List.cons.inj htail
      exact .inr ⟨start, rfl, hback⟩

end Marks

/-- A bank that goes on behind another one, with the same text in the end. -/
theorem writtenAlike_of_append {bank name bank' name' : String} {t : List Char}
    (hbank : bank'.toList = bank.toList ++ t)
    (h : '[' :: '\'' :: name.toList = t ++ '[' :: '\'' :: name'.toList) :
    WrittenAlike bank name bank' name' := by
  obtain ⟨rfl, hname⟩ | ⟨start, rfl, hname⟩ := mark_cases (by decide) h
  · rw [List.append_nil] at hbank
    exact .inl ⟨String.toList_inj.mp hbank.symm, String.toList_inj.mp hname⟩
  · refine .inr (.inr ⟨String.ofList start, String.toList_inj.mp ?_, String.toList_inj.mp ?_⟩)
    · rw [hbank]
      simp
    · rw [hname]
      simp

theorem WrittenAlike.symm {bank name bank' name' : String}
    (h : WrittenAlike bank name bank' name') :
    WrittenAlike bank' name' bank name := by
  obtain ⟨hbank, hname⟩ | h | h := h
  · exact .inl ⟨hbank.symm, hname.symm⟩
  · exact .inr (.inr h)
  · exact .inr (.inl h)

/-- Names in banks are written alike just if their texts are the same up to the quotes that end
them. -/
theorem writtenAlike_iff {bank name bank' name' : String} :
    WrittenAlike bank name bank' name' ↔ bank ++ "['" ++ name = bank' ++ "['" ++ name' := by
  constructor
  · rintro (⟨rfl, rfl⟩ | ⟨start, rfl, rfl⟩ | ⟨start, rfl, rfl⟩) <;> simp only [String.append_assoc]
  · intro h
    have hchars : bank.toList ++ '[' :: '\'' :: name.toList
        = bank'.toList ++ '[' :: '\'' :: name'.toList := by
      simpa using congrArg String.toList h
    obtain ⟨t, hbank, hname⟩ | ⟨t, hbank, hname⟩ := List.append_eq_append_iff.mp hchars
    · exact writtenAlike_of_append hbank hname
    · exact (writtenAlike_of_append hbank hname).symm

/-! ## Addresses -/

theorem isDigit_of_mem_toString {addr : Nat} {c : Char} (h : c ∈ (toString addr).toList) :
    c.isDigit := by
  rw [Nat.toString_eq_ofList_toDigits, String.toList_ofList] at h
  exact Nat.isDigit_of_mem_toDigits (show 0 < 10 by decide) (by decide) h

/-- The digits of an address are read as that address. -/
theorem digitsValue_toString (addr : Nat) : Json.digitsValue (toString addr).toList = addr := by
  rw [Nat.toString_eq_ofList_toDigits, String.toList_ofList]
  refine Eq.trans ?_ (Nat.ofDigitChars_ten_toDigits (n := addr))
  rw [Nat.ofDigitChars_eq_foldl]
  rfl

namespace Profile

/-- Addresses are told apart in any banks. -/
theorem addressed_inj {bank bank' : String} {a b : Nat}
    (h : bank ++ "[" ++ toString a ++ "]" = bank' ++ "[" ++ toString b ++ "]") : a = b := by
  have hmark : ∀ n : Nat, '[' ∉ (toString n).toList := by
    intro n hmem
    exact absurd (isDigit_of_mem_toString hmem) (by decide)
  have htext : bank ++ "[" ++ toString a = bank' ++ "[" ++ toString b :=
    (String.append_left_inj _).mp h
  have hchars : bank.toList ++ '[' :: (toString a).toList
      = bank'.toList ++ '[' :: (toString b).toList := by
    simpa using congrArg String.toList htext
  calc a = Json.digitsValue (toString a).toList := (digitsValue_toString a).symm
    _ = Json.digitsValue (toString b).toList := by
      rw [eq_of_append_mark_eq (hmark a) (hmark b) hchars]
    _ = b := digitsValue_toString b

/-- No name is written as an address. -/
theorem named_ne_addressed (bank name bank' : String) (addr : Nat) :
    bank ++ "['" ++ name ++ "']" ≠ bank' ++ "[" ++ toString addr ++ "]" := by
  intro h
  have hchars : (bank.toList ++ '[' :: '\'' :: name.toList) ++ ['\'']
      = bank'.toList ++ '[' :: (toString addr).toList := by
    have htext : bank ++ "['" ++ name ++ "'" ++ "]" = bank' ++ "[" ++ toString addr ++ "]" := by
      rw [← h, String.append_assoc]
      rfl
    simpa using congrArg String.toList ((String.append_left_inj _).mp htext)
  -- a quote would have to be a digit
  have hmem : '\'' ∈ '[' :: (toString addr).toList := by
    refine List.mem_of_getLast? ?_
    rw [← List.getLast?_append_of_ne_nil bank'.toList (List.cons_ne_nil _ _), ← hchars,
      List.getLast?_concat]
  obtain heq | hdigit := List.mem_cons.mp hmem
  · exact absurd heq (by decide)
  · exact absurd (isDigit_of_mem_toString hdigit) (by decide)

/-- Expressions for different flags are the same just if both flags have names that are written
alike. -/
theorem referenceIn_eq_iff {a b : Nat} (hne : a ≠ b) (bank bank' : FlagBank)
    (name name' : Option String) :
    referenceIn bank a name = referenceIn bank' b name' ↔
      ∃ n ∈ name, ∃ n' ∈ name', WrittenAlike bank.name n bank'.name n' := by
  unfold referenceIn
  cases name with
  | none =>
    cases name' with
    | none => simpa using fun h => hne (addressed_inj h)
    | some n' => simpa using (named_ne_addressed bank'.name n' bank.name a).symm
  | some n =>
    cases name' with
    | none => simpa using named_ne_addressed bank.name n bank'.name b
    | some n' => simp [writtenAlike_iff, String.append_left_inj]

/-- A flag that may be used lies in a bank. -/
theorem exists_bank_of_granted {p : Profile} {addr : Nat} {r : String}
    (h : p.access addr = .granted r) :
    ∃ bank, p.bankFor? addr = some bank ∧ r = referenceIn bank addr (p.flagName? addr) := by
  unfold access at h
  unfold flagName?
  cases hbank : p.bankFor? addr with
  | none =>
    rw [hbank] at h
    cases h
  | some bank =>
    refine ⟨bank, rfl, ?_⟩
    rw [hbank] at h
    cases hentry : p.flag? addr with
    | none =>
      rw [hentry] at h
      cases h
      rfl
    | some entry =>
      rw [hentry] at h
      cases hpolicy : entry.policy <;> simp [hpolicy] at h
      exact h.symm

end Profile

/-! ## Tables by address -/

/-- A table is listed by increasing address, so each address has one entry. -/
def Keyed.Increasing {α : Type} (l : Keyed Nat α) : Prop :=
  l.Pairwise fun e e' => e.1 < e'.1

namespace Keyed

variable {α : Type} {l : Keyed Nat α}

theorem mem_insert {key : Nat} {value : α} {e : Nat × α} (h : e ∈ insert key value l) :
    e = (key, value) ∨ e ∈ l := by
  induction l with
  | nil => exact .inl (List.mem_singleton.mp h)
  | cons first rest ih =>
    obtain ⟨k, v⟩ := first
    rw [insert] at h
    split at h
    · exact List.mem_cons.mp h
    · split at h
      · obtain rfl | hrest := List.mem_cons.mp h
        · exact .inr List.mem_cons_self
        · exact (ih hrest).imp_right (List.mem_cons_of_mem _)
      · exact (List.mem_cons.mp h).imp_right (List.mem_cons_of_mem _)

/-- An entry goes to its place by address, or takes the place of the one there. -/
theorem Increasing.insert (h : Increasing l) (key : Nat) (value : α) :
    Increasing (insert key value l) := by
  induction l with
  | nil => exact List.pairwise_singleton _ _
  | cons first rest ih =>
    obtain ⟨k, v⟩ := first
    obtain ⟨hfirst, hrest⟩ := List.pairwise_cons.mp h
    rw [Keyed.insert]
    split
    · next hlt =>
      refine List.pairwise_cons.mpr ⟨List.forall_mem_cons.mpr ⟨hlt, fun e he => ?_⟩, h⟩
      exact Nat.lt_trans hlt (hfirst e he)
    · next hle =>
      split
      · next hlt =>
        refine List.pairwise_cons.mpr ⟨fun e he => ?_, ih hrest⟩
        obtain rfl | hmem := mem_insert he
        · exact hlt
        · exact hfirst e hmem
      · next hge =>
        -- neither key is below the other one
        obtain rfl : key = k := by omega
        exact List.pairwise_cons.mpr ⟨hfirst, hrest⟩

theorem Increasing.foldl_insert (h : Increasing l) (entries : List (Nat × α)) :
    Increasing (entries.foldl (fun map e => Keyed.insert e.1 e.2 map) l) := by
  induction entries generalizing l with
  | nil => exact h
  | cons e entries ih => exact ih (h.insert e.1 e.2)

/-- In a table by address a lookup finds all there is. -/
theorem Increasing.lookup_eq_some_iff (h : Increasing l) {key : Nat} {value : α} :
    l.lookup key = some value ↔ (key, value) ∈ l := by
  rw [List.lookup_eq_some_iff]
  constructor
  · rintro ⟨front, back, rfl, -⟩
    exact List.mem_append_right front List.mem_cons_self
  · intro hmem
    obtain ⟨front, back, rfl⟩ := List.append_of_mem hmem
    refine ⟨front, back, rfl, fun e he => ?_⟩
    have hlt : e.1 < key := (List.pairwise_append.mp h).2.2 e he (key, value) List.mem_cons_self
    exact bne_iff_ne.mpr (by omega)

end Keyed

namespace Profile

/-- Whatever the order in the text, the table that is read is ordered. -/
theorem increasing_readKeyed {α : Type} {readKey : Json.Literal → Option Nat}
    {read : Json.Value → Option α} {v : Json.Value} {l : Keyed Nat α}
    (h : readKeyed readKey read v = some l) : l.Increasing := by
  cases v with
  | object members =>
    obtain ⟨entries, -, hentries⟩ := Option.bind_eq_some_iff.mp h
    cases hentries
    exact Keyed.Increasing.foldl_insert List.Pairwise.nil entries
  | _ => cases h

theorem increasing_systemFlags : Keyed.Increasing systemFlags := by
  unfold Keyed.Increasing
  decide

theorem increasing_orDefault {v : Option Json.Value} {flags : Keyed Nat FlagEntry}
    (h : orDefault systemFlags (readKeyed readAddressKey readFlagEntry) v = some flags) :
    flags.Increasing := by
  cases v with
  | none =>
    cases h
    exact increasing_systemFlags
  | some v => exact increasing_readKeyed h

/-- Settings are loaded just if they can be read and nothing is wrong with them. -/
theorem load_eq_ok_iff {text : String} {readers : Charset.Readers} {p : Profile} :
    load text readers = .ok p ↔ (Json.read? text).bind ofJson? = some p.toSettings ∧
      fault? p.toSettings = none ∧ p.readers = readers := by
  constructor
  · intro h
    unfold load at h
    split at h
    · cases h
    · next settings hread =>
      split at h
      · cases h
      · next hfault =>
        cases h
        exact ⟨hread, hfault, rfl⟩
  · rintro ⟨hread, hfault, rfl⟩
    unfold load
    rw [hread]
    dsimp only
    rw [hfault]

/-- The flags of settings are read into such a table, or are the default ones. -/
theorem increasing_flags_of_ofJson? {v : Json.Value} {settings : Settings}
    (h : ofJson? v = some settings) : settings.flags.Increasing := by
  unfold ofJson? at h
  obtain ⟨fields, -, hread⟩ := Option.bind_eq_some_iff.mp h
  split at hread
  · -- the flags come behind nineteen other fields and before two
    iterate 19 obtain ⟨_, -, hread⟩ := Option.bind_eq_some_iff.mp hread
    obtain ⟨flags, hflags, hread⟩ := Option.bind_eq_some_iff.mp hread
    iterate 2 obtain ⟨_, -, hread⟩ := Option.bind_eq_some_iff.mp hread
    cases hread
    exact increasing_orDefault hflags
  · cases hread

end Profile

/-! ## The table of names -/

namespace Companion

open Literal (OneLine)
open Renpy (Document)

/-- The lines of a table below its first one. -/
def tableLines (flags : List (String × Nat)) : List String :=
  if flags.isEmpty then ["  WILL_FLAG_NAMES = \x7b\x7d"]
  else "  WILL_FLAG_NAMES = \x7b" :: flags.map (fun e => "    " ++ flagLine e.1 e.2) ++ ["  \x7d"]

/-- The companion file is a header and the lines of the table. -/
theorem flagNames_eq (p : Profile) :
    flagNames p = String.join (("python early:" :: tableLines (namedFlags p)).map (· ++ "\n")) := by
  unfold flagNames block Document.text Document.render tableLines
  cases namedFlags p with
  | nil => rfl
  | cons first others =>
    have hentries := Document.entries_block (fun e : String × Nat => .verbatim (flagLine e.1 e.2))
        (first :: others)
      (({} : Document).header (.verbatim "python early:")) (.verbatim "WILL_FLAG_NAMES = \x7b")
    have hdepth := Document.depth_block (fun e : String × Nat => .verbatim (flagLine e.1 e.2))
        (first :: others)
      (({} : Document).header (.verbatim "python early:")) (.verbatim "WILL_FLAG_NAMES = \x7b")
    dsimp only
    -- the brace that closes the table is in the outer block, so that block is not empty
    rw [Document.entries_closeScope_statement, Document.entries_statement]
    generalize Document.closeScope _ = table at hentries hdepth ⊢
    rw [hentries, hdepth, if_neg (by simp), if_neg (by simp)]
    simp only [List.map_append, List.map_cons, List.map_map]
    rfl

/-- Characters that stand for themselves between single quotes. -/
def isPlain (c : Char) : Bool :=
  c != '\'' && c != '\\' && c != '\n' && c != '\r'

/-- Reads an entry of a table: a name between quotes, in which nothing is escaped, and its
address. -/
def readEntry? (line : List Char) : Option (String × Nat) := do
  let cs ← line.dropPrefix? "    '".toList
  let rest ← (cs.dropWhile isPlain).dropPrefix? "': ".toList
  let (digits, rest) ← Json.readDigits rest
  if rest = [','] then some (String.ofList (cs.takeWhile isPlain), Json.digitsValue digits)
  else none

/-- Reads the entries of a table through the line that closes it, which is the last one. -/
def readEntries? : List (List Char) → Option (List (String × Nat))
  | [] => none
  | line :: rest =>
    if line = "  \x7d".toList then if rest = [[]] then some [] else none
    else do return (← readEntry? line) :: (← readEntries? rest)

/-- Reads a table. -/
def readTable? (text : String) : Option (List (String × Nat)) :=
  match text.toList.splitOn '\n' with
  | header :: opening :: rest =>
    if header ≠ "python early:".toList then none
    else if opening = "  WILL_FLAG_NAMES = \x7b\x7d".toList then
      if rest = [[]] then some [] else none
    else if opening = "  WILL_FLAG_NAMES = \x7b".toList then readEntries? rest
    else none
  | _ => none

/-- The value of a name in a table. Of entries for one name the last one counts. -/
def tableValue? (entries : List (String × Nat)) (name : String) : Option Nat :=
  entries.reverse.lookup name

/-- An address is read up to the comma behind it. -/
theorem readDigits_toString (addr : Nat) (rest : List Char) :
    Json.readDigits ((toString addr).toList ++ ',' :: rest)
      = some ((toString addr).toList, ',' :: rest) := by
  have hdigits : ∀ c ∈ (toString addr).toList, c.isDigit := fun c => isDigit_of_mem_toString
  unfold Json.readDigits
  rw [List.takeWhile_append_of_pos hdigits, List.dropWhile_append_of_pos hdigits,
    List.takeWhile_cons_of_neg (by decide), List.append_nil, List.dropWhile_cons_of_neg (by decide)]
  simp

/-- A line of the table is read back if the name has no quotes, backslashes or line breaks. -/
theorem readEntry?_flagLine {name : String} (hname : name.toList.all isPlain) (addr : Nat) :
    readEntry? ("    " ++ flagLine name addr).toList = some (name, addr) := by
  have hplain : ∀ c ∈ name.toList, isPlain c := List.all_eq_true.mp hname
  have hline : ("    " ++ flagLine name addr).toList
      = "    '".toList ++ (name.toList ++ ("': ".toList ++ ((toString addr).toList ++ [',']))) := by
    simp [flagLine]
  have hdrop :
      (name.toList ++ ("': ".toList ++ ((toString addr).toList ++ [',']))).dropWhile isPlain
        = "': ".toList ++ ((toString addr).toList ++ [',']) :=
    List.dropWhile_append_of_pos hplain
  have htake : (name.toList ++ ("': ".toList ++ ((toString addr).toList ++ [',']))).takeWhile
      isPlain = name.toList :=
    (List.takeWhile_append_of_pos hplain).trans (List.append_nil _)
  unfold readEntry?
  rw [hline, List.dropPrefix?_append_of_beq _ (beq_self_eq_true _)]
  dsimp only [Option.bind_eq_bind, Option.bind_some]
  rw [hdrop, htake, List.dropPrefix?_append_of_beq _ (beq_self_eq_true _)]
  dsimp only [Option.bind_some]
  rw [readDigits_toString]
  dsimp only [Option.bind_some]
  rw [if_pos rfl, digitsValue_toString, String.ofList_toList]

/-- The lines are read one by one up to the closing brace. -/
theorem readEntries?_lines {flags : List (String × Nat)} (h : ∀ e ∈ flags, e.1.toList.all isPlain) :
    readEntries? (flags.map (fun e => ("    " ++ flagLine e.1 e.2).toList) ++ ["  \x7d".toList, []])
      = some flags := by
  induction flags with
  | nil => rfl
  | cons e flags ih =>
    obtain ⟨hfirst, hothers⟩ := List.forall_mem_cons.mp h
    rw [List.map_cons, List.cons_append, readEntries?, if_neg (by simp),
      readEntry?_flagLine hfirst, ih hothers]
    rfl

theorem oneLine_of_all_isPlain {name : String} (h : name.toList.all isPlain) : OneLine name :=
  fun hmem => absurd (List.all_eq_true.mp h '\n' hmem) (by decide)

/-- So the lines can be told apart. -/
theorem oneLine_flagLine {name : String} (h : name.toList.all isPlain) (addr : Nat) :
    OneLine ("    " ++ flagLine name addr) := by
  have haddr : OneLine (toString addr) := (Literal.isWord_toString addr).oneLine
  have hname := oneLine_of_all_isPlain h
  refine OneLine.append (by decide) ?_
  exact ((((show OneLine "'" by decide).append hname).append (by decide)).append haddr).append
    (by decide)

/-- The lines of a table of names that need no escapes. -/
theorem splitOn_flagNames {p : Profile} (h : ∀ e ∈ namedFlags p, e.1.toList.all isPlain) :
    (flagNames p).toList.splitOn '\n'
      = "python early:".toList :: (tableLines (namedFlags p)).map String.toList ++ [[]] := by
  have htext : (flagNames p).toList
      = (("python early:" :: tableLines (namedFlags p)).map String.toList).flatMap
        (· ++ ['\n']) := by
    rw [flagNames_eq, String.toList_join, List.flatMap_map, List.flatMap_map]
    simp only [String.toList_append]
    rfl
  rw [htext, splitOn_lines, List.map_cons]
  refine List.forall_mem_map.mpr (List.forall_mem_cons.mpr ⟨by decide, fun line hline => ?_⟩)
  unfold tableLines at hline
  split at hline
  · rw [List.mem_singleton.mp hline]
    decide
  · obtain hopening | hline := List.mem_append.mp hline
    · obtain rfl | hentry := List.mem_cons.mp hopening
      · decide
      · obtain ⟨e, he, rfl⟩ := List.mem_map.mp hentry
        exact oneLine_flagLine (h e he) e.2
    · rw [List.mem_singleton.mp hline]
      decide

/-- The table of names that need no escapes is read as the names and their addresses. -/
theorem readTable?_flagNames {p : Profile} (h : ∀ e ∈ namedFlags p, e.1.toList.all isPlain) :
    readTable? (flagNames p) = some (namedFlags p) := by
  unfold readTable?
  rw [splitOn_flagNames h]
  unfold tableLines
  cases hflags : namedFlags p with
  | nil => rfl
  | cons first others =>
    have hentries := readEntries?_lines (hflags ▸ h)
    have hlines : (first :: others).map (fun e => ("    " ++ flagLine e.1 e.2).toList)
        ++ ["  \x7d".toList, []]
        = ((first :: others).map (fun e => "    " ++ flagLine e.1 e.2) ++ ["  \x7d"]).map
          String.toList ++ [[]] := by
      rw [List.map_append, List.map_map, List.append_assoc]
      rfl
    rw [hlines] at hentries
    exact hentries

/-- Where a name comes up more than once, the last address is its value. -/
theorem tableValue?_eq_some_iff {entries : List (String × Nat)}
    (h : entries.Pairwise fun e e' => e.2 < e'.2) {name : String} {addr : Nat} :
    tableValue? entries name = some addr ↔
      (name, addr) ∈ entries ∧ ∀ other, addr < other → (name, other) ∉ entries := by
  unfold tableValue?
  rw [List.lookup_eq_some_iff]
  constructor
  · rintro ⟨back, front, hsplit, hback⟩
    obtain rfl : entries = front.reverse ++ (name, addr) :: back.reverse := by
      rw [← List.reverse_reverse entries, hsplit]
      simp
    refine ⟨List.mem_append_right _ List.mem_cons_self, fun other hlt hmem => ?_⟩
    obtain hfront | hrest := List.mem_append.mp hmem
    · have hle : other < addr :=
        (List.pairwise_append.mp h).2.2 _ hfront (name, addr) List.mem_cons_self
      omega
    · obtain heq | hmem := List.mem_cons.mp hrest
      · exact absurd (Prod.mk.inj heq).2 (by omega)
      · exact absurd (hback _ (List.mem_reverse.mp hmem)) (by simp)
  · rintro ⟨hmem, hlast⟩
    obtain ⟨front, back, rfl⟩ := List.append_of_mem hmem
    refine ⟨back.reverse, front.reverse, by simp, fun e he => bne_iff_ne.mpr fun heq => ?_⟩
    have hback : e ∈ back := List.mem_reverse.mp he
    have hlt : addr < e.2 := List.rel_of_pairwise_cons (List.pairwise_append.mp h).2.1 hback
    refine hlast e.2 hlt (List.mem_append_right front (List.mem_cons_of_mem _ ?_))
    rw [heq]
    exact hback

section NamedFlags

variable {p : Profile} (h : p.flags.Increasing)

include h

/-- The table has the flags with a name, and no others. -/
theorem mem_namedFlags_iff {name : String} {addr : Nat} :
    (name, addr) ∈ namedFlags p ↔ p.flagName? addr = some name := by
  unfold namedFlags Profile.flagName? Profile.flag?
  rw [List.mem_filterMap, Option.bind_eq_some_iff]
  constructor
  · rintro ⟨⟨a, entry⟩, hmem, hname⟩
    obtain ⟨n, hn, heq⟩ := Option.map_eq_some_iff.mp hname
    cases heq
    exact ⟨entry, h.lookup_eq_some_iff.mpr hmem, hn⟩
  · rintro ⟨entry, hentry, hname⟩
    exact ⟨(addr, entry), h.lookup_eq_some_iff.mp hentry,
      Option.map_eq_some_iff.mpr ⟨name, hname, rfl⟩⟩

/-- They stand in the order of their addresses. -/
theorem pairwise_namedFlags : (namedFlags p).Pairwise fun e e' => e.2 < e'.2 := by
  refine List.Pairwise.filterMap _ (fun e e' hlt b hb b' hb' => ?_) h
  obtain ⟨name, -, rfl⟩ := Option.map_eq_some_iff.mp hb
  obtain ⟨name', -, rfl⟩ := Option.map_eq_some_iff.mp hb'
  exact hlt

end NamedFlags

end Companion

namespace Profile

open Companion (isPlain readTable? tableValue?)

/-- Flags of a loaded profile are written alike just if they have names that are. If no name has
to be escaped, then the table is read as the flags with names by increasing address, and gives the
address of a flag for its name just if no flag at a higher address has that name. -/
theorem flags_told_apart {text : String} {readers : Charset.Readers} {p : Profile}
    (hload : load text readers = .ok p) :
    (∀ a b r s, a ≠ b → p.access a = .granted r → p.access b = .granted s →
      (r = s ↔ ∃ bank bank' name name', p.bankFor? a = some bank ∧ p.bankFor? b = some bank' ∧
        p.flagName? a = some name ∧ p.flagName? b = some name' ∧
          WrittenAlike bank.name name bank'.name name')) ∧
    ((∀ addr name, p.flagName? addr = some name → name.toList.all isPlain) →
      ∃ entries, readTable? (Companion.flagNames p) = some entries ∧
        entries.Pairwise (fun e e' => e.2 < e'.2) ∧
        (∀ name addr, (name, addr) ∈ entries ↔ p.flagName? addr = some name) ∧
        ∀ name addr, p.flagName? addr = some name →
          (tableValue? entries name = some addr ↔ ∀ other, addr < other →
            p.flagName? other ≠ some name)) := by
  obtain ⟨v, -, hv⟩ := Option.bind_eq_some_iff.mp (load_eq_ok_iff.mp hload).1
  have hflags := increasing_flags_of_ofJson? hv
  constructor
  · intro a b r s hne ha hb
    obtain ⟨bank, hbank, rfl⟩ := exists_bank_of_granted ha
    obtain ⟨bank', hbank', rfl⟩ := exists_bank_of_granted hb
    rw [referenceIn_eq_iff hne]
    constructor
    · rintro ⟨name, hname, name', hname', halike⟩
      exact ⟨bank, bank', name, name', hbank, hbank', hname, hname', halike⟩
    · rintro ⟨c, c', name, name', hc, hc', hname, hname', halike⟩
      obtain rfl := Option.some.inj (hbank.symm.trans hc)
      obtain rfl := Option.some.inj (hbank'.symm.trans hc')
      exact ⟨name, hname, name', hname', halike⟩
  · intro hplain
    have hmem : ∀ name addr, (name, addr) ∈ Companion.namedFlags p ↔ p.flagName? addr = some name :=
      fun _ _ => Companion.mem_namedFlags_iff hflags
    have hpairwise := Companion.pairwise_namedFlags hflags
    refine ⟨Companion.namedFlags p, Companion.readTable?_flagNames ?_, hpairwise, hmem,
      fun name addr hname => ?_⟩
    · exact fun e he => hplain e.2 e.1 ((hmem e.1 e.2).mp he)
    · rw [Companion.tableValue?_eq_some_iff hpairwise, and_iff_right ((hmem name addr).mpr hname)]
      simp only [hmem, ne_eq]

/-- Settings in which two of three flags have one name. -/
def sharedName : String :=
  "\x7b\"flags\": \x7b\"1\": \x7b\"name\": \"x\"\x7d, \"2\": \x7b\"name\": \"y\"\x7d, " ++
    "\"5\": \x7b\"name\": \"x\"\x7d\x7d\x7d"

def sharedNameProfile : Profile :=
  { flags := [(1, { name := some "x" }), (2, { name := some "y" }), (5, { name := some "x" })] }

/-- The profile is what its text says. -/
theorem load_sharedName : load sharedName = .ok sharedNameProfile :=
  load_eq_ok_iff.mpr ⟨by decide +kernel, by decide +kernel, rfl⟩

/-- The flag with a name of its own is told from the others, which are not told from each other.
The table gives the later one of them for their name. -/
theorem flags_told_apart_of_sharedName :
    ∃ r s t entries, load sharedName = .ok sharedNameProfile ∧
      sharedNameProfile.access 1 = .granted r ∧ sharedNameProfile.access 2 = .granted s ∧
      sharedNameProfile.access 5 = .granted t ∧ r ≠ s ∧ r = t ∧
      readTable? (Companion.flagNames sharedNameProfile) = some entries ∧
      tableValue? entries "y" = some 2 ∧ tableValue? entries "x" ≠ some 1 ∧
        tableValue? entries "x" = some 5 := by
  obtain ⟨hreferences, htable⟩ := flags_told_apart load_sharedName
  have hincreasing : sharedNameProfile.flags.Increasing := by
    unfold Keyed.Increasing
    decide
  have hnamed : ∀ {name addr}, sharedNameProfile.flagName? addr = some name →
      (name, addr) ∈ [("x", 1), ("y", 2), ("x", 5)] :=
    (Companion.mem_namedFlags_iff hincreasing).mpr
  have hplain : ∀ e ∈ [("x", 1), ("y", 2), ("x", 5)], e.1.toList.all isPlain := by decide
  obtain ⟨entries, hread, -, -, hvalue⟩ := htable fun addr name hname => hplain _ (hnamed hname)
  have hlast : ∀ e ∈ [("x", 1), ("y", 2), ("x", 5)], e.1 = "y" → e.2 ≤ 2 := by decide
  have hhighest : ∀ e ∈ [("x", 1), ("y", 2), ("x", 5)], e.2 ≤ 5 := by decide
  refine ⟨_, _, _, entries, load_sharedName, rfl, rfl, rfl, ?_, ?_, hread, ?_, ?_, ?_⟩
  · intro heq
    obtain ⟨bank, bank', name, name', hbank, hbank', hname, hname', halike⟩ :=
      (hreferences 1 2 _ _ (by decide) rfl rfl).mp heq
    cases hbank
    cases hbank'
    cases hname
    cases hname'
    exact absurd (writtenAlike_iff.mp halike) (by decide)
  · exact (hreferences 1 5 _ _ (by decide) rfl rfl).mpr
      ⟨_, _, _, _, rfl, rfl, rfl, rfl, .inl ⟨rfl, rfl⟩⟩
  · refine (hvalue "y" 2 rfl).mpr fun other hlt hname => ?_
    have := hlast _ (hnamed hname) rfl
    omega
  · exact fun h => (hvalue "x" 1 rfl).mp h 5 (by decide) rfl
  · refine (hvalue "x" 5 rfl).mpr fun other hlt hname => ?_
    have := hhighest _ (hnamed hname)
    omega

/-- Two flags with one name are written as one expression, and the table does not give the address
of the first one for its name. -/
theorem flags_merged_by_name :
    ∃ entries, load sharedName = .ok sharedNameProfile ∧
      sharedNameProfile.access 1 = .granted "will_flagbank['x']" ∧
      sharedNameProfile.access 5 = .granted "will_flagbank['x']" ∧
      sharedNameProfile.flagName? 1 = some "x" ∧
      readTable? (Companion.flagNames sharedNameProfile) = some entries ∧
        tableValue? entries "x" ≠ some 1 :=
  ⟨[("x", 1), ("y", 2), ("x", 5)],
    load_sharedName, by decide +kernel, by decide +kernel, by decide +kernel,
    by decide +kernel, by decide +kernel⟩

end Profile

end Rio
