import Rio.Companion
import Rio.Proofs.Renpy.Indentation
import Rio.Transpile

/-!
# Text between single quotes

A literal between single quotes is read from left to right: a backslash before a quote or before
another backslash stands for the character behind it, any other character for itself, and a quote
ends the literal. A literal does not go over a line break.

Names are written between single quotes with a backslash before each quote. Backslashes of the
name are written as they are, so a name is read back only if none of them stands before a
character that it would take with it:

> `readLiteral_singleQuoted`: the literal of a text is read as that text, up to its own last quote,
> just if the text has no line break and each backslash in it has a character behind it that is
> neither a quote nor a backslash.

The reader loses a character for each escape (`length_of_readSingle`), so a text with two
backslashes in a row can not come out as long as it was.
-/

namespace Rio.Literal

/-- Reads the inside of a literal up to the quote that ends it: the text it stands for, and what
is left. -/
def readSingle : List Char → Option (List Char × List Char)
  | [] => none
  | '\'' :: rest => some ([], rest)
  | '\n' :: _ => none
  | '\\' :: '\'' :: rest => (readSingle rest).map (Prod.map ('\'' :: ·) id)
  | '\\' :: '\\' :: rest => (readSingle rest).map (Prod.map ('\\' :: ·) id)
  | c :: rest => (readSingle rest).map (Prod.map (c :: ·) id)

/-- Reads a literal. -/
def readLiteral : List Char → Option (List Char × List Char)
  | '\'' :: rest => readSingle rest
  | _ => none

/-- Each backslash has a character behind it that it does not take with it. -/
def BackslashesStand (cs : List Char) : Prop :=
  ∀ front back, cs = front ++ '\\' :: back → ∃ c rest, back = c :: rest ∧ c ≠ '\\' ∧ c ≠ '\''

/-! ## The reader -/

variable {c : Char} {cs rest value left : List Char}

theorem readSingle_quote (rest : List Char) : readSingle ('\'' :: rest) = some ([], rest) :=
  rfl

theorem readSingle_escapedQuote (rest : List Char) :
    readSingle ('\\' :: '\'' :: rest) = (readSingle rest).map (Prod.map ('\'' :: ·) id) :=
  rfl

theorem readSingle_escapedBackslash (rest : List Char) :
    readSingle ('\\' :: '\\' :: rest) = (readSingle rest).map (Prod.map ('\\' :: ·) id) :=
  rfl

/-- A character that neither ends the literal nor takes the next one with it stands for itself. -/
theorem readSingle_cons (hquote : c ≠ '\'') (hbreak : c ≠ '\n')
    (hescaped : ∀ rest, c = '\\' → cs ≠ '\'' :: rest)
    (hslashes : ∀ rest, c = '\\' → cs ≠ '\\' :: rest) :
    readSingle (c :: cs) = (readSingle cs).map (Prod.map (c :: ·) id) := by
  rw [readSingle]
  · exact hquote
  · exact hbreak
  · exact hescaped
  · exact hslashes

theorem readSingle_of_ne (hquote : c ≠ '\'') (hbreak : c ≠ '\n') (hslash : c ≠ '\\')
    (rest : List Char) :
    readSingle (c :: rest) = (readSingle rest).map (Prod.map (c :: ·) id) :=
  readSingle_cons hquote hbreak (fun _ h => absurd h hslash) (fun _ h => absurd h hslash)

theorem readSingle_backslash (hquote : c ≠ '\'') (hslash : c ≠ '\\') (rest : List Char) :
    readSingle ('\\' :: c :: rest) = (readSingle (c :: rest)).map (Prod.map ('\\' :: ·) id) :=
  readSingle_cons (by decide) (by decide) (fun _ _ h => hquote (List.cons.inj h).1)
    (fun _ _ h => hslash (List.cons.inj h).1)

/-- The first character that is read is the first one of the text. -/
theorem map_push_eq_some_iff {read : Option (List Char × List Char)} :
    read.map (Prod.map (c :: ·) id) = some (value, left) ↔ ∃ tail, value = c :: tail ∧
      read = some (tail, left) := by
  cases read with
  | none => simp
  | some pair =>
    obtain ⟨tail, rest⟩ := pair
    constructor
    · intro h
      cases h
      exact ⟨tail, rfl, rfl⟩
    · rintro ⟨tail, rfl, h⟩
      cases h
      rfl

/-- What is read is no longer than what it is read from, quotes counting twice. -/
theorem length_of_readSingle (h : readSingle cs = some (value, left)) :
    value.length + value.count '\'' + 1 + left.length ≤ cs.length := by
  induction cs using readSingle.induct generalizing value left with
  | case1 => cases h
  | case2 rest =>
    rw [readSingle_quote] at h
    cases h
    simp only [List.length_nil, List.count_nil, List.length_cons]
    omega
  | case3 rest => cases h
  | case4 rest ih =>
    rw [readSingle_escapedQuote, map_push_eq_some_iff] at h
    obtain ⟨tail, rfl, htail⟩ := h
    have hle := ih htail
    -- the quote that is read pays for the backslash before it
    simp only [List.length_cons, List.count_cons_self]
    omega
  | case5 rest ih =>
    rw [readSingle_escapedBackslash, map_push_eq_some_iff] at h
    obtain ⟨tail, rfl, htail⟩ := h
    have hle := ih htail
    simp only [List.length_cons, List.count_cons_of_ne (show '\\' ≠ '\'' by decide)]
    omega
  | case6 c rest hquote hbreak hescaped hslashes ih =>
    rw [readSingle_cons hquote hbreak hescaped hslashes, map_push_eq_some_iff] at h
    obtain ⟨tail, rfl, htail⟩ := h
    have hle := ih htail
    rw [List.length_cons, List.count_cons_of_ne hquote, List.length_cons]
    omega

/-! ## Names between quotes -/

/-- A backslash stands for itself if neither a backslash nor a quote comes next. -/
theorem backslashesStand_cons_iff :
    BackslashesStand (c :: cs) ↔
      (c = '\\' → ∃ d rest, cs = d :: rest ∧ d ≠ '\\' ∧ d ≠ '\'') ∧ BackslashesStand cs := by
  constructor
  · intro h
    refine ⟨fun hslash => h [] cs (by rw [hslash]; rfl),
      fun front back heq => h (c :: front) back ?_⟩
    rw [heq, List.cons_append]
  · rintro ⟨hfirst, hrest⟩ front back heq
    cases front with
    | nil =>
      obtain ⟨hslash, rfl⟩ := List.cons.inj heq
      exact hfirst hslash
    | cons d front => exact hrest front back (List.cons.inj heq).2

/-- The characters that stand between the quotes. -/
def singleBody (cs : List Char) : List Char :=
  cs.flatMap fun c => if c == '\'' then ['\\', '\''] else [c]

theorem singleBody_quote (cs : List Char) :
    singleBody ('\'' :: cs) = '\\' :: '\'' :: singleBody cs := rfl

theorem singleBody_of_ne (hquote : c ≠ '\'') (cs : List Char) :
    singleBody (c :: cs) = c :: singleBody cs := by
  simp [singleBody, hquote]

/-- Each quote is written with one backslash more. -/
theorem length_singleBody (cs : List Char) :
    (singleBody cs).length = cs.length + cs.count '\'' := by
  induction cs with
  | nil => rfl
  | cons c cs ih =>
    by_cases hquote : c = '\''
    · subst hquote
      rw [singleBody_quote, List.count_cons_self, List.length_cons, List.length_cons, ih,
        List.length_cons]
      omega
    · rw [singleBody_of_ne hquote, List.count_cons_of_ne hquote, List.length_cons, ih,
        List.length_cons]
      omega

/-- A backslash is read back just if it does not take the next character with it, be that the last
quote. -/
theorem readSingle_backslash_singleBody_iff (cs rest : List Char) :
    readSingle ('\\' :: (singleBody cs ++ '\'' :: rest)) = some ('\\' :: cs, rest) ↔
      (∃ d tail, cs = d :: tail ∧ d ≠ '\\' ∧ d ≠ '\'') ∧
        readSingle (singleBody cs ++ '\'' :: rest) = some (cs, rest) := by
  cases cs with
  | nil =>
    rw [show singleBody [] ++ '\'' :: rest = '\'' :: rest from rfl, readSingle_escapedQuote,
      map_push_eq_some_iff]
    simp
  | cons d cs =>
    by_cases hquote : d = '\''
    · -- the two backslashes are read as one, and the quote ends the literal
      subst hquote
      rw [singleBody_quote, List.cons_append, List.cons_append, readSingle_escapedBackslash,
        map_push_eq_some_iff, readSingle_quote]
      simp
    · rw [singleBody_of_ne hquote, List.cons_append]
      by_cases hslash : d = '\\'
      · -- a backslash is lost, and nothing makes up for it
        subst hslash
        rw [readSingle_escapedBackslash, map_push_eq_some_iff]
        constructor
        · rintro ⟨tail, htail, hread⟩
          obtain rfl := (List.cons.inj htail).2
          have hle := length_of_readSingle hread
          rw [List.length_append, length_singleBody, List.length_cons, List.length_cons,
            List.count_cons_of_ne hquote] at hle
          omega
        · rintro ⟨⟨d, tail, heq, hne, -⟩, -⟩
          exact absurd (List.cons.inj heq).1.symm hne
      -- a backslash before any other character stands for itself
      · rw [readSingle_backslash hquote hslash, map_push_eq_some_iff]
        simp [hquote, hslash]

/-- Between quotes a text is read back just if it has no line break and its backslashes stand. -/
theorem readSingle_singleBody_iff (cs rest : List Char) :
    readSingle (singleBody cs ++ '\'' :: rest) = some (cs, rest)
      ↔ '\n' ∉ cs ∧ BackslashesStand cs := by
  induction cs with
  | nil => simp [singleBody, readSingle_quote, BackslashesStand]
  | cons c cs ih =>
    by_cases hquote : c = '\''
    · subst hquote
      rw [singleBody_quote, List.cons_append, List.cons_append, readSingle_escapedQuote,
        map_push_eq_some_iff, backslashesStand_cons_iff]
      simp [ih]
    · rw [singleBody_of_ne hquote, List.cons_append, backslashesStand_cons_iff]
      by_cases hbreak : c = '\n'
      · subst hbreak
        refine iff_of_false (fun hread => ?_) (by simp)
        -- no literal goes over a line break
        change none = some _ at hread
        cases hread
      · by_cases hslash : c = '\\'
        · subst hslash
          rw [readSingle_backslash_singleBody_iff, ih]
          simp [and_left_comm]
        · rw [readSingle_of_ne hquote hbreak hslash, map_push_eq_some_iff]
          simp [ih, hslash, Ne.symm hbreak]

/-- The literal of a text is read as that text, up to its own last quote, under the same
condition. -/
theorem readLiteral_singleQuoted (s : String) (rest : List Char) :
    readLiteral ((singleQuoted s).toList ++ rest) = some (s.toList, rest) ↔
      '\n' ∉ s.toList ∧ BackslashesStand s.toList := by
  have htext : (singleQuoted s).toList ++ rest = '\'' :: (singleBody s.toList ++ '\'' :: rest) := by
    simp [singleQuoted, escapeSingle, singleBody]
  rw [htext]
  exact readSingle_singleBody_iff s.toList rest

end Rio.Literal

namespace Rio.Companion

open Renpy (Document)

/-- The lines under the header of the definitions. -/
def definitions (p : Profile) : List String :=
  if p.characters.isEmpty then ["pass"] else p.characters.map (characterDefinition p)

/-- The file of the characters has a line for each of them. -/
theorem characters_eq (p : Profile) :
    characters p = "init:\n" ++ String.join
      ((definitions p).map fun line => "  " ++ line ++ "\n") := by
  have hentries :=
    Document.entries_block (fun c => .verbatim (characterDefinition p c)) p.characters {}
    (.verbatim "init:")
  unfold characters block Document.text Document.render
  rw [hentries, show (Document.entries {}).toList = [] from rfl, List.nil_append, List.map_cons,
    List.map_map, String.join_cons]
  congr 1
  unfold definitions
  split
  · rfl
  · rw [List.map_map, List.map_map]
    rfl

/-- What comes behind the name of a character. -/
def afterName (c : Character) : String :=
  (match c.whoColor with
    | some color => ", who_color='" ++ color ++ "'"
    | none => "") ++ ")"

/-- The name of a character is between single quotes. -/
theorem characterDefinition_eq (p : Profile) (c : Character) :
    characterDefinition p c
      = "define " ++ p.qualify c.symbol ++ " = Character("
        ++ (Literal.singleQuoted c.name ++ afterName c) := by
  unfold characterDefinition afterName
  cases c.whoColor with
  | none => simp only [String.append_assoc]
  | some color => simp only [String.append_assoc]

end Rio.Companion

namespace Rio

open Literal (BackslashesStand readLiteral singleQuoted)

/-- The literals of saved names and of characters are read as the names, up to their own last
quotes, just if the names have no line break and their backslashes stand. -/
theorem names_readBack_iff (c : Screenplay.Context) (i : Instruction) (rest : List Instruction)
    (s : Screenplay.State) (raw : List UInt8) (p : Profile) (character : Character) :
    (∃ st literal, Screenplay.execute c i rest s (.eventName raw) = .ok (s.emit st) ∧
      st.text.toList = "$ save_name = _(".toList ++ literal ∧
      (readLiteral literal = some ((c.text raw).toList, ")".toList) ↔
        '\n' ∉ (c.text raw).toList ∧ BackslashesStand (c.text raw).toList)) ∧
    Companion.characters p
      = "init:\n" ++ String.join ((Companion.definitions p).map fun line => "  " ++ line ++ "\n") ∧
    ∃ literal, (Companion.characterDefinition p character).toList
        = ("define " ++ p.qualify character.symbol ++ " = Character(").toList ++ literal ∧
      (readLiteral literal = some (character.name.toList, (Companion.afterName character).toList) ↔
        '\n' ∉ character.name.toList ∧ BackslashesStand character.name.toList) := by
  refine ⟨?_, Companion.characters_eq p, ?_⟩
  · refine ⟨.saveName (c.text raw), (singleQuoted (c.text raw)).toList ++ ")".toList, rfl, ?_,
      Literal.readLiteral_singleQuoted (c.text raw) _⟩
    show ("$ save_name = _(" ++ singleQuoted (c.text raw) ++ ")").toList = _
    rw [String.toList_append, String.toList_append, List.append_assoc]
  · refine ⟨(singleQuoted character.name).toList ++ (Companion.afterName character).toList, ?_,
      Literal.readLiteral_singleQuoted character.name _⟩
    have hafter : (singleQuoted character.name ++ Companion.afterName character).toList
        = (singleQuoted character.name).toList ++ (Companion.afterName character).toList :=
      String.toList_append
    rw [Companion.characterDefinition_eq, String.toList_append, hafter]

/-- A backslash at the end of a saved name takes the last quote with it, so the literal does not
end. Of two backslashes in the name of a character one is lost. -/
theorem backslash_lost :
    (transpile "a" [0xe0, 0x61, 0x5c, 0] {}).document.rows.map (·.statement.text)
      = ["label RIO_A:", "$ save_name = _(" ++ singleQuoted "a\\" ++ ")"] ∧
    readLiteral (singleQuoted "a\\" ++ ")").toList = none ∧
    Companion.characters { characters := [⟨"e", "a\\\\b", none⟩] }
      = "init:\n  define chara.e = Character(" ++ singleQuoted "a\\\\b" ++ ")\n" ∧
    readLiteral (singleQuoted "a\\\\b" ++ ")").toList = some ("a\\b".toList, ")".toList) := by
  decide +kernel

end Rio
