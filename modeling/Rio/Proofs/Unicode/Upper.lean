import Rio.Screenplay.State

/-!
# Names in upper case

Names of scripts are compared without regard to the case of ASCII letters, and written in upper
case. A name that compares equal to one in upper case is then written as that one
(`toUpper_of_sameIgnoringCase`), also where other letters are involved: upper case of upper case
is nothing new (`upperChar_of_mem`), because no code point is the image of a letter and a letter
with an image itself. The two sets of code points are compared as numbers with a bit for each
element.
-/

namespace Rio.Unicode

/-! ## Sets of numbers as bits -/

/-- The number with the bits of a list. -/
def bitSet : List Nat → Nat
  | [] => 0
  | n :: l => 1 <<< n ||| bitSet l

theorem testBit_bitSet {l : List Nat} {n : Nat} : (bitSet l).testBit n = true ↔ n ∈ l := by
  induction l with
  | nil => simp [bitSet]
  | cons m l ih =>
    have hbit : (1 <<< m).testBit n = true ↔ n = m := by
      rw [Nat.one_shiftLeft, Nat.testBit_two_pow, decide_eq_true_iff]
      exact eq_comm
    rw [bitSet, Nat.testBit_or, Bool.or_eq_true, hbit, ih, List.mem_cons]

/-- Lists without a common bit have no common element. -/
theorem not_mem_of_bitSet {l l' : List Nat} (h : bitSet l &&& bitSet l' = 0) {n : Nat}
    (hn : n ∈ l') :
    n ∉ l := by
  intro hmem
  have hboth : (bitSet l &&& bitSet l').testBit n = true := by
    rw [Nat.testBit_and, testBit_bitSet.mpr hmem, testBit_bitSet.mpr hn]
    rfl
  rw [h, Nat.zero_testBit] at hboth
  cases hboth

/-! ## Runs of letters -/

/-- The code points of a run. -/
def CaseRun.sources (run : CaseRun) : List Nat :=
  (List.range ((run.last - run.first) / run.step + 1)).map fun k => run.first + k * run.step

/-- The code points that a run leads to. -/
def CaseRun.images (run : CaseRun) : List Nat :=
  run.sources.map fun n : Nat => (n + run.delta).toNat

theorem CaseRun.mem_sources {run : CaseRun} {n : Nat} (hfirst : run.first ≤ n)
    (hlast : n ≤ run.last) (hstep : (n - run.first) % run.step = 0) : n ∈ run.sources := by
  refine List.mem_map.mpr ⟨(n - run.first) / run.step, List.mem_range.mpr ?_, ?_⟩
  · have hle : (n - run.first) / run.step ≤ (run.last - run.first) / run.step :=
      Nat.div_le_div_right (by omega)
    omega
  · have hdiv := Nat.div_add_mod (n - run.first) run.step
    rw [hstep, Nat.mul_comm] at hdiv
    omega

/-- What has an image is in one of the runs, and the image is one of its images. -/
theorem CaseRun.mem_of_image? {runs : List CaseRun} {n m : Nat} (h : image? runs n = some m) :
    n ∈ runs.flatMap sources ∧ m ∈ runs.flatMap images := by
  induction runs with
  | nil => cases h
  | cons run runs ih =>
    unfold image? at h
    split at h
    · cases h
    · next hfirst =>
      split at h
      · next hcovered =>
        rw [Bool.and_eq_true, decide_eq_true_iff, beq_iff_eq] at hcovered
        have hmem : n ∈ run.sources := mem_sources (by omega) hcovered.1 hcovered.2
        rw [← Option.some.inj h]
        exact ⟨List.mem_flatMap.mpr ⟨run, List.mem_cons_self .., hmem⟩,
          List.mem_flatMap.mpr ⟨run, List.mem_cons_self .., List.mem_map_of_mem hmem⟩⟩
      · obtain ⟨hsource, himage⟩ := ih h
        exact ⟨List.mem_append_right _ hsource, List.mem_append_right _ himage⟩

/-! ## Case tables -/

/-- The code points that have an image. -/
def caseSources (expansions : List (Nat × List Nat)) (runs : List CaseRun) : List Nat :=
  expansions.map (·.1) ++ runs.flatMap CaseRun.sources

/-- The code points that are images, and the one that stands for an image that is no character. -/
def caseImages (expansions : List (Nat × List Nat)) (runs : List CaseRun) : List Nat :=
  0 :: expansions.flatMap (·.2) ++ runs.flatMap CaseRun.images

variable {expansions : List (Nat × List Nat)} {runs : List CaseRun} {c d : Char}

/-- Other characters stay as they are. -/
theorem mapCase_of_not_mem (h : c.toNat ∉ caseSources expansions runs) :
    mapCase expansions runs c = [c] := by
  rw [caseSources, List.mem_append, not_or] at h
  have hfind : expansions.find? (·.1 == c.toNat) = none := by
    rw [List.find?_eq_none]
    intro e he heq
    exact h.1 (List.mem_map.mpr ⟨e, he, beq_iff_eq.mp heq⟩)
  have himage : CaseRun.image? runs c.toNat = none := by
    cases hm : CaseRun.image? runs c.toNat with
    | none => rfl
    | some m => exact absurd (CaseRun.mem_of_image? hm).1 h.2
  unfold mapCase
  rw [hfind, himage]

/-- A number that is no character stands for the first one. -/
theorem toNat_ofNat_mem {l : List Nat} {n : Nat} (hn : n ∈ l) : (Char.ofNat n).toNat ∈ 0 :: l := by
  unfold Char.ofNat
  by_cases hvalid : n.isValidChar
  · rw [dif_pos hvalid]
    exact List.mem_cons_of_mem _ hn
  · rw [dif_neg hvalid]
    exact List.mem_cons_self ..

/-- A character is left as it is, or what it becomes are images. -/
theorem mapCase_cases (expansions : List (Nat × List Nat)) (runs : List CaseRun) (c : Char) :
    mapCase expansions runs c = [c] ∨
      ∀ d ∈ mapCase expansions runs c, d.toNat ∈ caseImages expansions runs := by
  unfold mapCase
  split
  · next n image hfind =>
    right
    intro d hd
    obtain ⟨m, hm, rfl⟩ := List.mem_map.mp hd
    have hmem : m ∈ expansions.flatMap (·.2) :=
      List.mem_flatMap.mpr ⟨_, List.mem_of_find?_eq_some hfind, hm⟩
    exact List.mem_append_left _ (toNat_ofNat_mem hmem)
  · split
    · next n himage =>
      right
      intro d hd
      obtain rfl := List.mem_singleton.mp hd
      rcases List.mem_cons.mp (toNat_ofNat_mem (CaseRun.mem_of_image? himage).2) with hzero | hmem
      · rw [hzero]
        exact List.mem_cons_self ..
      · exact List.mem_append_right _ hmem
    · exact .inl rfl

/-- Where no image has an image, what a character becomes stays as it is. -/
theorem mapCase_of_mem
    (hapart : bitSet (caseSources expansions runs) &&& bitSet (caseImages expansions runs) = 0)
    (hd : d ∈ mapCase expansions runs c) : mapCase expansions runs d = [d] := by
  rcases mapCase_cases expansions runs c with hsame | himages
  · rw [hsame, List.mem_singleton] at hd
    rw [hd, hsame]
  · exact mapCase_of_not_mem (not_mem_of_bitSet hapart (himages d hd))

/-! ## Upper case -/

theorem upperChar_of_mem (hd : d ∈ upperChar c) : upperChar d = [d] :=
  mapCase_of_mem (by decide +kernel) hd

theorem upperChar_of_mem_toUpper {s : String} (hc : c ∈ (toUpper s).toList) :
    upperChar c = [c] := by
  rw [toUpper, String.toList_ofList] at hc
  obtain ⟨b, -, hb⟩ := List.mem_flatMap.mp hc
  exact upperChar_of_mem hb

theorem toNat_toLower (c : Char) :
    c.toLower.toNat = if 65 ≤ c.toNat ∧ c.toNat ≤ 90 then c.toNat + 32 else c.toNat := by
  have hcapital : (c.val ≥ 'A'.val ∧ c.val ≤ 'Z'.val) ↔ 65 ≤ c.toNat ∧ c.toNat ≤ 90 := by
    simp [UInt32.le_iff_toNat_le]
  unfold Char.toLower
  by_cases h : 65 ≤ c.toNat ∧ c.toNat ≤ 90
  · rw [dif_pos (hcapital.mpr h), if_pos h]
    show (c.val + 32).toNat = c.val.toNat + 32
    have hsmall : c.val.toNat ≤ 90 := h.2
    rw [UInt32.toNat_add]
    exact Nat.mod_eq_of_lt (by simp; omega)
  · rw [dif_neg (fun hval => h (hcapital.mp hval)), if_neg h]

/-- The upper case of a small ASCII letter is the capital. -/
theorem upperChar_of_small (hd : 65 ≤ d.toNat ∧ d.toNat ≤ 90) (hc : c.toNat = d.toNat + 32) :
    upperChar c = [d] := by
  have hletters : ∀ k < 26, upperChar (Char.ofNat (97 + k)) = [Char.ofNat (65 + k)] := by
    decide +kernel
  have hupper := hletters (d.toNat - 65) (by omega)
  rw [show 97 + (d.toNat - 65) = c.toNat by omega, show 65 + (d.toNat - 65) = d.toNat by omega,
    Char.ofNat_toNat, Char.ofNat_toNat] at hupper
  exact hupper

/-- A character without another upper case is the upper case of all that differ from it only by
the case of ASCII letters. -/
theorem upperChar_of_toLower_eq (h : c.toLower = d.toLower) (hd : upperChar d = [d]) :
    upperChar c = [d] := by
  have hnat : c.toLower.toNat = d.toLower.toNat := congrArg Char.toNat h
  rw [toNat_toLower, toNat_toLower] at hnat
  have hsame : c.toNat = d.toNat → upperChar c = [d] := by
    intro heq
    rw [Char.toNat_inj.mp heq, hd]
  by_cases hc' : 65 ≤ c.toNat ∧ c.toNat ≤ 90
  · by_cases hd' : 65 ≤ d.toNat ∧ d.toNat ≤ 90
    · rw [if_pos hc', if_pos hd'] at hnat
      exact hsame (by omega)
    · -- a small letter has another upper case
      rw [if_pos hc', if_neg hd'] at hnat
      rw [upperChar_of_small hc' hnat.symm] at hd
      rw [(List.cons.inj hd).1] at hnat
      omega
  · by_cases hd' : 65 ≤ d.toNat ∧ d.toNat ≤ 90
    · rw [if_neg hc', if_pos hd'] at hnat
      exact upperChar_of_small hd' hnat
    · rw [if_neg hc', if_neg hd'] at hnat
      exact hsame hnat

theorem flatMap_upperChar_of_toLower {l l' : List Char}
    (h : l.map Char.toLower = l'.map Char.toLower) (hl' : ∀ c ∈ l', upperChar c = [c]) :
    l.flatMap upperChar = l' := by
  induction l' generalizing l with
  | nil =>
    rw [List.map_nil, List.map_eq_nil_iff] at h
    rw [h]
    rfl
  | cons d l' ih =>
    obtain ⟨c, l, rfl, hc, hl⟩ := List.map_eq_cons_iff.mp h
    rw [List.flatMap_cons, upperChar_of_toLower_eq hc (hl' d (List.mem_cons_self ..)),
      ih hl fun b hb => hl' b (List.mem_cons_of_mem _ hb)]
    rfl

end Rio.Unicode

namespace Rio.Screenplay

/-- A text that differs from one in upper case only by the case of ASCII letters has it as its
upper case. -/
theorem toUpper_of_sameIgnoringCase {s t : String}
    (h : sameIgnoringCase s (Unicode.toUpper t) = true) :
    Unicode.toUpper s = Unicode.toUpper t := by
  have hlower := beq_iff_eq.mp h
  have hsame := Unicode.flatMap_upperChar_of_toLower hlower fun c hc =>
    Unicode.upperChar_of_mem_toUpper hc
  rw [Unicode.toUpper, hsame, String.ofList_toList]

end Rio.Screenplay
