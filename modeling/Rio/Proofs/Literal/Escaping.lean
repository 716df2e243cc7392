import Mathlib.Data.List.Infix
import Mathlib.Data.List.TakeWhile
import Rio.Literal.Dialogue

/-!
# What escaped dialogue stands for

Escaped text is read in pairs: a backslash with the character it escapes, a bracket or brace with
its double. `unescape` reads it so. The text of a script has two pairs of its own, `\n` and `\\`,
which `shown` reads.

Away from the groups `{base:reading}` the two readings agree: `unescape_escape` says that what is
read back from an escaped text is what the script shows. Each character is escaped on its own
there, and the reader is back at the start of a pair after each of them (`unescape_escapeChar`).

`ruby?_eq_some_iff` says which groups there are.
-/

namespace Rio.Literal

/-! ## Groups -/

/-- What may stand on either side of the colon of a group. -/
structure IsPart (cs : List Char) : Prop where
  ne_nil : cs ≠ []
  noOpening : '\x7b' ∉ cs
  noColon : ':' ∉ cs
  noClosing : '\x7d' ∉ cs

/-- Text that starts with a group `{base:reading}`. -/
def StartsWithGroup (cs : List Char) : Prop :=
  ∃ base reading rest, IsPart base ∧ IsPart reading ∧
    cs = '\x7b' :: base ++ ':' :: reading ++ '\x7d' :: rest

section Cut

variable {x y : Char} {cs front back : List Char}

/-- A list is cut at the first occurrence of a mark. -/
theorem eq_cut_of_dropWhile (h : cs.dropWhile (· != x) = y :: back) :
    cs = cs.takeWhile (· != x) ++ x :: back := by
  have hmark : y = x := by
    have hhead := List.head?_dropWhile_not (· != x) cs
    rw [h] at hhead
    simpa using hhead
  rw [← hmark, ← h, hmark]
  exact List.takeWhile_append_dropWhile.symm

theorem bne_of_notMem (h : x ∉ cs) : ∀ c ∈ cs, (c != x) = true := by
  intro c hc
  exact bne_iff_ne.mpr fun heq => h (heq ▸ hc)

/-- The part before the first mark. -/
theorem takeWhile_cut (h : x ∉ front) : (front ++ x :: back).takeWhile (· != x) = front := by
  rw [List.takeWhile_append_of_pos (bne_of_notMem h), List.takeWhile_cons_of_neg (by simp),
    List.append_nil]

/-- The part from the first mark on. -/
theorem dropWhile_cut (h : x ∉ front) :
    (front ++ x :: back).dropWhile (· != x) = x :: back := by
  rw [List.dropWhile_append_of_pos (bne_of_notMem h), List.dropWhile_cons_of_neg (by simp)]

theorem notMem_takeWhile (x : Char) (cs : List Char) : x ∉ cs.takeWhile (· != x) := by
  intro h
  simpa using List.mem_takeWhile_imp h

end Cut

/-- The test for a part of a group looks for what a part may not have. -/
theorem isRubyPart_iff {cs : List Char} (h : '\x7d' ∉ cs) : isRubyPart cs = true ↔ IsPart cs := by
  constructor
  · intro hpart
    simp only [isRubyPart, Bool.and_eq_true, Bool.not_eq_true', List.isEmpty_eq_false_iff,
      List.contains_eq_mem, decide_eq_false_iff_not] at hpart
    exact ⟨hpart.1.1, hpart.1.2, hpart.2, h⟩
  · intro hpart
    simp [isRubyPart, hpart.ne_nil, hpart.noOpening, hpart.noColon]

/-- The groups are those that `ruby?` reads after the opening brace. -/
theorem ruby?_eq_some_iff {cs rest : List Char} {r : Ruby} :
    ruby? cs = some (r, rest) ↔
      IsPart r.base ∧ IsPart r.reading ∧ cs = r.base ++ ':' :: r.reading ++ '\x7d' :: rest := by
  constructor
  · intro h
    simp only [ruby?] at h
    have hbody := notMem_takeWhile '\x7d' cs
    generalize hcut : cs.takeWhile (· != '\x7d') = body at h hbody
    split at h
    · cases h
    · next y rest' hdrop =>
      split at h
      · next hparts =>
        obtain ⟨rfl, rfl⟩ := Prod.mk.inj (Option.some.inj h)
        simp only [Bool.and_eq_true, List.contains_iff_mem] at hparts
        obtain ⟨⟨hcolon, hbase⟩, hreading⟩ := hparts
        -- the body is cut at its first colon
        obtain ⟨z, reading, hdropBody⟩ : ∃ z reading, body.dropWhile (· != ':') = z :: reading := by
          cases hd : body.dropWhile (· != ':') with
          | nil => exact absurd (List.dropWhile_eq_nil_iff.mp hd ':' hcolon) (by simp)
          | cons z reading => exact ⟨z, reading, rfl⟩
        have heqBody := eq_cut_of_dropWhile hdropBody
        rw [hdropBody, List.drop_one, List.tail_cons] at hreading ⊢
        have hnotBase : '\x7d' ∉ body.takeWhile (· != ':') := fun hmem =>
          hbody ((List.takeWhile_sublist _).mem hmem)
        have hnotReading : '\x7d' ∉ reading := fun hmem => by
          rw [heqBody] at hbody
          exact hbody (List.mem_append_right _ (List.mem_cons_of_mem _ hmem))
        refine ⟨(isRubyPart_iff hnotBase).mp hbase, (isRubyPart_iff hnotReading).mp hreading, ?_⟩
        rw [← heqBody, ← hcut]
        exact eq_cut_of_dropWhile hdrop
      · cases h
  · rintro ⟨hbase, hreading, rfl⟩
    have hbody : '\x7d' ∉ r.base ++ ':' :: r.reading := by
      simp [hbase.noClosing, hreading.noClosing]
    have hparts : isRubyPart r.base = true ∧ isRubyPart r.reading = true :=
      ⟨(isRubyPart_iff hbase.noClosing).mpr hbase, (isRubyPart_iff hreading.noClosing).mpr hreading⟩
    simp only [ruby?]
    rw [takeWhile_cut hbody, dropWhile_cut hbody, takeWhile_cut hbase.noColon,
      dropWhile_cut hbase.noColon]
    simp [hparts]

/-- A brace starts a group if and only if the parser finds one there. -/
theorem startsWithGroup_iff {cs : List Char} :
    StartsWithGroup ('\x7b' :: cs) ↔ (ruby? cs).isSome := by
  rw [Option.isSome_iff_exists]
  constructor
  · rintro ⟨base, reading, rest, hbase, hreading, heq⟩
    exact ⟨(⟨base, reading⟩, rest), ruby?_eq_some_iff.mpr
      ⟨hbase, hreading, List.tail_eq_of_cons_eq heq⟩⟩
  · rintro ⟨⟨r, rest⟩, h⟩
    obtain ⟨hbase, hreading, rfl⟩ := ruby?_eq_some_iff.mp h
    exact ⟨r.base, r.reading, rest, hbase, hreading, rfl⟩

instance : DecidablePred StartsWithGroup := fun cs =>
  match cs with
  | [] => isFalse fun ⟨_, _, _, _, _, h⟩ => by cases h
  | c :: cs =>
    if hc : c = '\x7b' then
      decidable_of_iff (ruby? cs).isSome (hc ▸ startsWithGroup_iff.symm)
    else isFalse fun ⟨_, _, _, _, _, h⟩ => hc (List.head_eq_of_cons_eq h)

/-! ## The two readings -/

/-- The character that a pair in an escaped text stands for. -/
def pairMeaning? (c d : Char) : Option Char :=
  if c = '\\' then
    if d = 'n' then some '\n'
    else if d = '\\' ∨ d = '%' ∨ d = '"' ∨ d = '\'' then some d
    else none
  else if c = d ∧ (c = '[' ∨ c = ']' ∨ c = '\x7b' ∨ c = '\x7d') then some c
  else none

/-- The characters that an escaped text stands for. -/
def unescape : List Char → List Char
  | [] => []
  | [c] => [c]
  | c :: d :: rest =>
    match pairMeaning? c d with
    | some meaning => meaning :: unescape rest
    | none => c :: unescape (d :: rest)

/-- The characters that the text of a script shows. -/
def shown : List Char → List Char
  | [] => []
  | '\\' :: 'n' :: rest => '\n' :: shown rest
  | '\\' :: '\\' :: rest => '\\' :: shown rest
  | c :: rest => c :: shown rest

/-- Two characters that make an escape are read as one. -/
theorem unescape_pair {c d meaning : Char} (h : pairMeaning? c d = some meaning)
    (rest : List Char) : unescape (c :: d :: rest) = meaning :: unescape rest := by
  rw [unescape, h]

/-- A character that starts no pair stands for itself. -/
theorem unescape_single {c : Char} (h : ∀ d, pairMeaning? c d = none) (rest : List Char) :
    unescape (c :: rest) = c :: unescape rest := by
  cases rest with
  | nil => rfl
  | cons d rest => rw [unescape, h d]

/-- The escape of a character stands for the character, whatever follows it. -/
theorem unescape_escapeChar {c : Char} (hslash : c ≠ '\\') (hbrace : c ≠ '\x7b')
    (rest : List Char) : unescape (escapeChar none c ++ rest) = c :: unescape rest := by
  unfold escapeChar
  split
  · next h =>
    simp only [Bool.or_eq_true, beq_iff_eq] at h
    have hpair : pairMeaning? '\\' c = some c := by
      rcases h with (rfl | rfl) | rfl <;> rfl
    exact unescape_pair hpair rest
  · split
    · next h =>
      simp only [Bool.or_eq_true, beq_iff_eq] at h
      have hpair : pairMeaning? c c = some c := by
        rcases h with (rfl | rfl) | rfl <;> rfl
      exact unescape_pair hpair rest
    · next hquote hdouble =>
      simp only [Bool.or_eq_true, beq_iff_eq, not_or] at hdouble
      refine unescape_single (fun d => ?_) rest
      simp [pairMeaning?, hslash, hbrace, hdouble]

/-- A backslash that starts neither of the script's pairs is shown. -/
theorem shown_single {c : Char} {rest : List Char} (hbreak : ∀ t, c = '\\' → rest ≠ 'n' :: t)
    (hslash : ∀ t, c = '\\' → rest ≠ '\\' :: t) : shown (c :: rest) = c :: shown rest := by
  rw [shown]
  · intro t hc
    exact hbreak t hc
  · intro t hc
    exact hslash t hc

/-- By induction on the characters, two at a time where a backslash takes the next one with it. -/
theorem unescape_escapeChars {cs : List Char} (h : ∀ t, t <:+ cs → ¬StartsWithGroup t) :
    unescape (escapeChars none cs) = shown cs := by
  -- along the recursion of `escapeChars`: one case for each way a text can start
  fun_induction escapeChars none cs with
  | case1 => rfl
  | case2 rest ih =>
    rw [unescape_pair rfl, ih fun t ht => h t (ht.trans ⟨['\\', 'n'], rfl⟩)]
    rfl
  | case3 rest ih =>
    rw [unescape_pair rfl, ih fun t ht => h t (ht.trans ⟨['\\', '\\'], rfl⟩)]
    rfl
  | case4 c rest hbreak hslash hc ih =>
    obtain rfl := eq_of_beq hc
    rw [unescape_pair rfl, ih fun t ht => h t (ht.trans (List.suffix_cons ..)),
      shown_single (fun t _ => hbreak t rfl) fun t _ => hslash t rfl]
  | case5 c rest hbreak hslash hc hbrace r rest' hruby =>
    obtain rfl := eq_of_beq hbrace
    exact absurd (startsWithGroup_iff.mpr (by rw [hruby]; rfl)) (h _ (List.suffix_refl _))
  | case6 c rest hbreak hslash hc hbrace hruby ih =>
    obtain rfl := eq_of_beq hbrace
    rw [unescape_pair rfl, ih fun t ht => h t (ht.trans (List.suffix_cons ..)),
      shown_single (fun t ht => absurd ht (by decide)) fun t ht => absurd ht (by decide)]
  | case7 c rest hbreak hslash hc hbrace ih =>
    have hcslash : c ≠ '\\' := fun heq => hc (beq_iff_eq.mpr heq)
    rw [unescape_escapeChar hcslash fun heq => hbrace (beq_iff_eq.mpr heq),
      ih fun t ht => h t (ht.trans (List.suffix_cons ..)),
      shown_single (fun t ht => absurd ht hcslash) fun t ht => absurd ht hcslash]

/-- Escaping keeps the meaning of a text without groups. -/
theorem unescape_escape (text : String) (h : ∀ t, t <:+ text.toList → ¬StartsWithGroup t) :
    unescape (escape none text).toList = shown text.toList := by
  rw [escape, String.toList_ofList]
  exact unescape_escapeChars h

/-- Backslashes in a row, quotes, a per cent sign, brackets, and braces that make no group. -/
def mixedText : String :=
  "\\\\\\n\\q \x7ba:\x7d \x7b:b\x7d [50%] \"it's\" \x7ba:b\\"

/-- A text with backslashes, braces that are no groups, brackets, a percent sign and both quotes. -/
theorem unescape_escape_mixedText :
    (∀ t, t <:+ mixedText.toList → ¬StartsWithGroup t) ∧
      unescape (escape none mixedText).toList = shown mixedText.toList ∧
      shown mixedText.toList =
        "\\\n\\q \x7ba:\x7d \x7b:b\x7d [50%] \"it's\" \x7ba:b\\".toList := by
  have hgroups : ∀ t ∈ mixedText.toList.tails, ¬StartsWithGroup t := by decide +kernel
  have h : ∀ t, t <:+ mixedText.toList → ¬StartsWithGroup t := fun t ht =>
    hgroups t ((List.mem_tails t _).mpr ht)
  exact ⟨h, unescape_escape mixedText h, by decide +kernel⟩

end Rio.Literal
