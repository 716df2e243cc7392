import Rio.Proofs.Literal.Escaping

/-!
# Text between quotes

The inside of a literal is read from left to right, and a backslash takes the next character with
it. `readBody` reads it so: it stops at a quote that no backslash escapes, since the literal ends
there.

Escaped text never stops the reader and leaves no backslash at its end, as long as no group of the
text has a quote that stops it: a base and a reading are copied as they are. `isBody_escape_iff`
says that this is the only way.
-/

namespace Rio.Literal

/-- Text between double quotes. -/
def quote (body : String) : String :=
  "\"" ++ body ++ "\""

/-- Reads the inside of a literal: `none` at a quote that ends it, otherwise whether a backslash
is left at the end that takes the next character with it. -/
def readBody : Bool → List Char → Option Bool
  | escaped, [] => some escaped
  | true, _ :: rest => readBody false rest
  | false, c :: rest => if c = '"' then none else readBody (c == '\\') rest

/-- The inside of a literal: no quote ends it early, and no backslash is left at its end. -/
def IsBody (cs : List Char) : Prop :=
  readBody false cs = some false

instance (cs : List Char) : Decidable (IsBody cs) :=
  inferInstanceAs (Decidable (readBody false cs = some false))

/-- Text that no quote ends early. -/
def IsOpen (cs : List Char) : Prop :=
  (readBody false cs).isSome

instance (cs : List Char) : Decidable (IsOpen cs) :=
  inferInstanceAs (Decidable ((readBody false cs).isSome = true))

/-- Text without a quote or a backslash. -/
def IsBland (cs : List Char) : Prop :=
  ∀ c ∈ cs, c ≠ '"' ∧ c ≠ '\\'

instance (cs : List Char) : Decidable (IsBland cs) :=
  List.decidableBAll (fun c => c ≠ '"' ∧ c ≠ '\\') cs

theorem readBody_append (escaped : Bool) (cs ds : List Char) :
    readBody escaped (cs ++ ds) = (readBody escaped cs).bind (readBody · ds) := by
  induction cs generalizing escaped with
  | nil => rfl
  | cons c cs ih =>
    cases escaped with
    | true => exact ih false
    | false =>
      simp only [List.cons_append, readBody]
      split
      · rfl
      · exact ih _

theorem IsBland.append {cs ds : List Char} (h : IsBland cs) (h' : IsBland ds) :
    IsBland (cs ++ ds) := by
  intro c hc
  exact (List.mem_append.mp hc).elim (h c) (h' c)

/-- What has neither quotes nor backslashes needs no escapes. -/
theorem IsBland.isBody {cs : List Char} (h : IsBland cs) : IsBody cs := by
  unfold IsBody
  induction cs with
  | nil => rfl
  | cons c cs ih =>
    obtain ⟨hquote, hslash⟩ := h c List.mem_cons_self
    rw [readBody, if_neg hquote, beq_false_of_ne hslash]
    exact ih fun d hd => h d (List.mem_cons_of_mem _ hd)

/-- The inside of a literal leaves the reader where it started. -/
theorem IsBody.readBody_append {cs : List Char} (h : IsBody cs) (ds : List Char) :
    readBody false (cs ++ ds) = readBody false ds := by
  rw [Literal.readBody_append, h, Option.bind_some]

/-- After a tag the reader is back at the start, also if a backslash takes the brace of the tag
with it. -/
theorem readBody_append_tag (cs tag : List Char) (hbrace : tag.head? = some '\x7b')
    (hbland : IsBland tag) (rest : List Char) :
    readBody false (cs ++ (tag ++ rest)) = if IsOpen cs then readBody false rest else none := by
  have htag : ∀ escaped, readBody escaped tag = some false := by
    intro escaped
    obtain ⟨tail, rfl⟩ := List.head?_eq_some_iff.mp hbrace
    cases escaped with
    | true => exact IsBland.isBody fun c hc => hbland c (List.mem_cons_of_mem _ hc)
    | false => exact hbland.isBody
  rw [readBody_append]
  by_cases hopen : IsOpen cs
  · obtain ⟨escaped, hread⟩ := Option.isSome_iff_exists.mp hopen
    rw [if_pos hopen, hread, Option.bind_some, readBody_append, htag, Option.bind_some]
  · rw [if_neg hopen, Option.not_isSome_iff_eq_none.mp hopen, Option.bind_none]

/-! ## Escaped text -/

/-- The base and the reading of a group are each followed by a tag. -/
theorem readBody_rubyText (r : Ruby) (rest : List Char) :
    readBody false (r.text ++ rest) =
      if IsOpen r.base ∧ IsOpen r.reading then readBody false rest else none := by
  have hreading := readBody_append_tag r.reading "\x7b/rt\x7d".toList (by decide) (by decide) rest
  -- a base of several characters has a tag on either side
  have hbase : readBody false (r.text ++ rest) = readBody false (r.base ++
      ((if r.base.length > 1 then "\x7b/rb\x7d\x7brt\x7d".toList else "\x7brt\x7d".toList) ++
        (r.reading ++ ("\x7b/rt\x7d".toList ++ rest)))) := by
    unfold Ruby.text
    dsimp only
    split
    · have hopening : IsBody "\x7brb\x7d".toList := by decide
      simp only [List.append_assoc]
      exact hopening.readBody_append _
    · simp only [List.append_assoc]
  rw [hbase, readBody_append_tag, hreading]
  · by_cases hopen : IsOpen r.base <;> simp [hopen]
  · split <;> decide
  · split <;> decide

/-- Any other character is escaped into the inside of a literal. -/
theorem isBody_escapeChar {c : Char} (hslash : c ≠ '\\') : IsBody (escapeChar none c) := by
  unfold escapeChar
  split
  · rfl
  · next hquote =>
    simp only [Bool.or_eq_true, beq_iff_eq, not_or] at hquote
    have hbland : c ≠ '"' ∧ c ≠ '\\' := ⟨hquote.1.2, hslash⟩
    split
    · exact IsBland.isBody fun d hd => by
        rcases List.mem_cons.mp hd with rfl | hd
        · exact hbland
        · exact List.mem_singleton.mp hd ▸ hbland
    · exact IsBland.isBody fun d hd => List.mem_singleton.mp hd ▸ hbland

/-- A text has a group if some part of it up to its end starts with the group. -/
def HasGroup (cs base reading : List Char) : Prop :=
  IsPart base ∧ IsPart reading ∧ ∃ rest, '\x7b' :: base ++ ':' :: reading ++ '\x7d' :: rest <:+ cs

/-- The groups of a text have no quote that ends a literal. -/
def GroupsOpen (cs : List Char) : Prop :=
  ∀ base reading, HasGroup cs base reading → IsOpen base ∧ IsOpen reading

/-- What starts with a character comes after everything that does not have it. -/
theorem suffix_of_notMem {x : Char} {front cs ds : List Char} (hx : x ∉ front)
    (h : x :: ds <:+ front ++ cs) : x :: ds <:+ cs := by
  induction front with
  | nil => exact h
  | cons c front ih =>
    rcases List.suffix_cons_iff.mp h with heq | h
    · exact absurd (List.head_eq_of_cons_eq heq ▸ List.mem_cons_self) hx
    · exact ih (fun hmem => hx (List.mem_cons_of_mem _ hmem)) h

theorem groupsOpen_append (front : List Char) {cs : List Char} (h : '\x7b' ∉ front) :
    GroupsOpen (front ++ cs) ↔ GroupsOpen cs := by
  constructor
  · intro hopen base reading ⟨hbase, hreading, rest, hrest⟩
    exact hopen base reading ⟨hbase, hreading, rest, hrest.trans (List.suffix_append ..)⟩
  · intro hopen base reading ⟨hbase, hreading, rest, hrest⟩
    exact hopen base reading ⟨hbase, hreading, rest, suffix_of_notMem h hrest⟩

theorem groupsOpen_of_ruby?_eq_none {cs : List Char} (h : ruby? cs = none) :
    GroupsOpen ('\x7b' :: cs) ↔ GroupsOpen cs := by
  constructor
  · intro hopen base reading ⟨hbase, hreading, rest, hrest⟩
    exact hopen base reading ⟨hbase, hreading, rest, hrest.trans (List.suffix_cons ..)⟩
  · intro hopen base reading ⟨hbase, hreading, rest, hrest⟩
    rcases List.suffix_cons_iff.mp hrest with heq | hrest
    · have hgroup : ruby? cs = some (⟨base, reading⟩, rest) :=
        ruby?_eq_some_iff.mpr ⟨hbase, hreading, (List.tail_eq_of_cons_eq heq).symm⟩
      rw [h] at hgroup
      cases hgroup
    · exact hopen base reading ⟨hbase, hreading, rest, hrest⟩

/-- A group is open if its parts are, and the rest after it is looked at on its own. -/
theorem groupsOpen_of_ruby?_eq_some {cs rest : List Char} {r : Ruby}
    (h : ruby? cs = some (r, rest)) :
    GroupsOpen ('\x7b' :: cs) ↔ (IsOpen r.base ∧ IsOpen r.reading) ∧ GroupsOpen rest := by
  obtain ⟨hbase, hreading, rfl⟩ := ruby?_eq_some_iff.mp h
  -- inside a group there is no brace that another one could start with
  have hinside : '\x7b' ∉ r.base ++ ':' :: r.reading ++ ['\x7d'] := by
    simp [hbase.noOpening, hreading.noOpening]
  have hsplit : r.base ++ ':' :: r.reading ++ '\x7d' :: rest
      = r.base ++ ':' :: r.reading ++ ['\x7d'] ++ rest := by
    rw [List.append_assoc _ ['\x7d'], List.singleton_append]
  constructor
  · intro hopen
    refine ⟨hopen r.base r.reading ⟨hbase, hreading, rest, List.suffix_refl _⟩, ?_⟩
    rw [← groupsOpen_append _ hinside, ← hsplit]
    intro base reading ⟨hbase', hreading', rest', hrest'⟩
    exact hopen base reading ⟨hbase', hreading', rest', hrest'.trans (List.suffix_cons ..)⟩
  · intro ⟨hparts, hopen⟩ base reading ⟨hbase', hreading', rest', hrest'⟩
    rcases List.suffix_cons_iff.mp hrest' with heq | hrest'
    · have hgroup : ruby? (r.base ++ ':' :: r.reading ++ '\x7d' :: rest)
          = some (⟨base, reading⟩, rest') :=
        ruby?_eq_some_iff.mpr ⟨hbase', hreading', (List.tail_eq_of_cons_eq heq).symm⟩
      rw [h] at hgroup
      obtain ⟨rfl, -⟩ := Prod.mk.inj (Option.some.inj hgroup)
      exact hparts
    · rw [hsplit] at hrest'
      exact hopen base reading ⟨hbase', hreading', rest', suffix_of_notMem hinside hrest'⟩

/-- What is written for a text is the inside of a literal if the groups of the text allow it, and
is cut short otherwise. -/
def BodyFor (cs written : List Char) : Prop :=
  (GroupsOpen cs ∧ readBody false written = some false) ∨
    (¬GroupsOpen cs ∧ readBody false written = none)

/-- A piece that is the inside of a literal may come before, where it stands for no group. -/
theorem BodyFor.append_left {cs cs' written : List Char} (h : BodyFor cs written)
    (piece : List Char) (hpiece : IsBody piece) (hgroups : GroupsOpen cs' ↔ GroupsOpen cs) :
    BodyFor cs' (piece ++ written) := by
  unfold BodyFor
  rw [hgroups, hpiece.readBody_append]
  exact h

/-- By induction on the characters, along the cases of the escaping. -/
theorem bodyFor_escapeChars (cs : List Char) : BodyFor cs (escapeChars none cs) := by
  -- along the recursion of `escapeChars`, as each piece leaves the reader where it started
  fun_induction escapeChars none cs with
  | case1 =>
    refine .inl ⟨fun base reading hgroup => ?_, rfl⟩
    obtain ⟨_, _, rest, hrest⟩ := hgroup
    have hnil := List.suffix_nil.mp hrest
    cases hnil
  | case2 rest ih =>
    exact ih.append_left ['\\', 'n'] (by decide)
      (groupsOpen_append ['\\', 'n'] (by decide))
  | case3 rest ih =>
    exact ih.append_left ['\\', '\\'] (by decide)
      (groupsOpen_append ['\\', '\\'] (by decide))
  | case4 c rest _ _ hc ih =>
    obtain rfl := eq_of_beq hc
    exact ih.append_left ['\\', '\\'] (by decide)
      (groupsOpen_append ['\\'] (by decide))
  | case5 c rest _ _ _ hbrace r rest' hruby hlt ih =>
    obtain rfl := eq_of_beq hbrace
    unfold BodyFor
    rw [groupsOpen_of_ruby?_eq_some hruby, readBody_rubyText]
    by_cases hparts : IsOpen r.base ∧ IsOpen r.reading
    · simpa [hparts, BodyFor] using ih
    · exact .inr ⟨fun h => hparts h.1, if_neg hparts⟩
  | case6 c rest _ _ _ hbrace hruby ih =>
    obtain rfl := eq_of_beq hbrace
    exact ih.append_left ['\x7b', '\x7b'] (by decide) (groupsOpen_of_ruby?_eq_none hruby)
  | case7 c rest _ _ hslash hbrace ih =>
    have hfront : '\x7b' ∉ [c] := fun hmem =>
      hbrace (beq_iff_eq.mpr (List.mem_singleton.mp hmem).symm)
    exact ih.append_left _ (isBody_escapeChar fun heq => hslash (beq_iff_eq.mpr heq))
      (groupsOpen_append _ hfront)

/-- An escaped text, with tags around it, is the inside of a literal exactly if no group of the
text has a quote that ends it. -/
theorem isBody_escape_iff (text : String) {front back : List Char} (hfront : IsBland front)
    (hback : IsBland back) :
    IsBody (front ++ (escape none text).toList ++ back) ↔ GroupsOpen text.toList := by
  rw [escape, String.toList_ofList, List.append_assoc]
  unfold IsBody
  rw [hfront.isBody.readBody_append, readBody_append]
  rcases bodyFor_escapeChars text.toList with ⟨hopen, hread⟩ | ⟨hopen, hread⟩
  · rw [hread, Option.bind_some]
    exact iff_of_true hback.isBody hopen
  · rw [hread, Option.bind_none]
    exact iff_of_false (fun h => by cases h) hopen

instance (cs : List Char) : Decidable (GroupsOpen cs) :=
  decidable_of_iff (IsBody (escapeChars none cs)) (by
    have hbland : IsBland [] := fun _ h => (by cases h)
    have hiff := isBody_escape_iff (String.ofList cs) hbland hbland
    rwa [List.nil_append, List.append_nil, escape, String.toList_ofList, String.toList_ofList]
      at hiff)

end Rio.Literal
