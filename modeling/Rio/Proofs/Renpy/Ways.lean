import Mathlib.Data.List.Chain
import Mathlib.Data.List.TakeWhile
import Rio.Proofs.Renpy.Playback

/-!
# Ways through a document

Where a player can come to, whatever the conditions of a document are at the time. From a row the
player goes on with the next one, passes over the block of a header, or jumps to a label; a jump
may come from anywhere, also from another script. `Goes` is one such move, and everything that
`follow` does is one (`goes_of_follow`).

A `Shield` is a block that leads away, right before some lines that are no further out and set no
label. The lines cannot be reached but through its header:

> `Shield.mem_way`: every way that leads to one of the lines from elsewhere comes by the header.
-/

namespace Rio

/-- The states that a move may lead to. -/
def Move.nexts {σ : Type} : Move σ → List σ
  | go next | tell _ next => [next]
  | ask _ yes no => [yes, no]
  | stop _ => []

namespace Renpy

/-- Whether the player may go on with the row after a statement. -/
def Statement.goesOn : Statement → Bool
  | .jump _ | .ret => false
  | _ => true

/-- One move of a player through the rows of a program, whatever the conditions are. -/
inductive Goes (program : List Row) : List Row → List Row → Prop where
  | step {r : Row} {rest : List Row} : r.statement.goesOn = true → Goes program (r :: rest) rest
  | past {r : Row} {rest : List Row} : r.statement.isHeader = true →
      Goes program (r :: rest) (skipBlock r.depth rest)
  | jump {rows : List Row} (label : String) : Goes program rows (seek label program)

variable {program : List Row}

theorem goes_of_follow {rows next : List Row} (h : next ∈ (follow program rows).nexts) :
    Goes program rows next := by
  cases rows with
  | nil => cases h
  | cons r rest =>
    have hstep : r.statement.goesOn = true → next ∈ [rest] → Goes program (r :: rest) next := by
      intro hgoes hnext
      rw [List.mem_singleton.mp hnext]
      exact .step hgoes
    rw [follow] at h
    split at h
    · next hst => exact hstep (by rw [hst]; rfl) h
    · next hst => exact hstep (by rw [hst]; rfl) h
    · next hst => exact hstep (by rw [hst]; rfl) h
    · cases h
    · next hst =>
      rcases List.mem_cons.mp h with rfl | h
      · exact .step (by rw [hst]; rfl)
      · rw [List.mem_singleton.mp h]
        exact .past (by rw [hst]; rfl)
    · split at h
      · cases h
      · rw [List.mem_singleton.mp h]
        exact .jump _
    · cases h

theorem Goes.suffix {p q : List Row} (h : Goes program p q) (hp : p <:+ program) :
    q <:+ program := by
  cases h with
  | step _ => exact (List.suffix_cons ..).trans hp
  | past _ => exact ((List.dropWhile_suffix _).trans (List.suffix_cons ..)).trans hp
  | jump label => exact List.dropWhile_suffix _

/-! ## Shielded lines -/

/-- A block that leads away, right before lines that are no further out and set no label. -/
structure Shield (rows front : List Row) (guard : Row) (body lines after : List Row) : Prop where
  eq : rows = front ++ guard :: (body ++ (lines ++ after))
  flat : ∀ r ∈ body, r.statement.isHeader = false
  leaves : ∃ r ∈ body.getLast?, r.statement.goesOn = false
  deep : ∀ r ∈ lines, guard.depth ≤ r.depth
  plain : ∀ r ∈ lines, r.label? = none

/-- In front of one of some lines, with the rows `after` behind them. -/
def Among (lines after rows : List Row) : Prop :=
  ∃ passed r rest, lines = passed ++ r :: rest ∧ rows = r :: (rest ++ after)

theorem Among.length {lines after rows : List Row} (h : Among lines after rows) :
    after.length < rows.length ∧ rows.length ≤ (lines ++ after).length := by
  obtain ⟨passed, r, rest, rfl, rfl⟩ := h
  simp only [List.length_cons, List.length_append]
  omega

/-- What is left of the lines and something behind them, with some of the lines. -/
theorem among_of_suffix {lines after rows : List Row} (h : rows <:+ lines ++ after)
    (hlength : after.length < rows.length) : Among lines after rows := by
  obtain ⟨passed, heq⟩ := h
  rcases List.append_eq_append_iff.mp heq with ⟨left, rfl, rfl⟩ | ⟨left, rfl, rfl⟩
  · cases left with
    | nil => exact absurd hlength (Nat.lt_irrefl _)
    | cons r rest => exact ⟨passed, r, rest, rfl, rfl⟩
  · rw [List.length_append] at hlength
    omega

/-- Two positions that have as much behind them are the same. -/
theorem eq_of_suffix {p q rows : List Row} (hp : p <:+ rows) (hq : q <:+ rows)
    (hlength : p.length = q.length) : p = q :=
  (List.suffix_of_suffix_length_le hp hq (Nat.le_of_eq hlength)).eq_of_length hlength

namespace Shield

variable {rows front body lines after p q : List Row} {guard : Row}

theorem guard_suffix (h : Shield rows front guard body lines after) :
    guard :: (body ++ (lines ++ after)) <:+ rows :=
  ⟨front, h.eq.symm⟩

theorem lines_suffix (h : Shield rows front guard body lines after) : lines ++ after <:+ rows :=
  ((List.suffix_append body _).trans (List.suffix_cons guard _)).trans h.guard_suffix

/-- Nothing goes on to the first line, and the others follow a line. -/
theorem of_step (h : Shield rows front guard body lines after) {r : Row} (hp : r :: q <:+ rows)
    (hq : Among lines after q) (hgoes : r.statement.goesOn = true) :
    Among lines after (r :: q) := by
  have hlength := hq.length
  by_cases hfirst : q.length = (lines ++ after).length
  · -- the row before the first line leads away
    obtain ⟨y, hy, hleaves⟩ := h.leaves
    obtain ⟨body', hbody⟩ := List.getLast?_eq_some_iff.mp hy
    have hsuffix : y :: (lines ++ after) <:+ rows := by
      refine List.IsSuffix.trans ⟨guard :: body', ?_⟩ h.guard_suffix
      rw [hbody]
      simp
    have heq := eq_of_suffix hp hsuffix (by rw [List.length_cons, List.length_cons, hfirst])
    rw [(List.cons.inj heq).1, hleaves] at hgoes
    cases hgoes
  · refine among_of_suffix (List.suffix_of_suffix_length_le hp h.lines_suffix ?_) ?_
    · rw [List.length_cons]
      omega
    · rw [List.length_cons]
      omega

/-- The lines are in no block that the guard is not in, so passing over a block leads to them only
from the guard and from among them. -/
theorem of_past (h : Shield rows front guard body lines after) {r : Row} {rest : List Row}
    (hp : r :: rest <:+ rows) (hq : Among lines after (skipBlock r.depth rest))
    (hheader : r.statement.isHeader = true) :
    r :: rest = guard :: (body ++ (lines ++ after)) ∨ Among lines after (r :: rest) := by
  have hlength := hq.length
  have hsplit : rest = rest.takeWhile (fun r' => decide (r.depth < r'.depth)) ++
      skipBlock r.depth rest := List.takeWhile_append_dropWhile.symm
  have hrest := congrArg List.length hsplit
  rw [List.length_append] at hrest
  rcases Nat.lt_trichotomy (r :: rest).length (guard :: (body ++ (lines ++ after))).length with
    hlt | heq | hgt
  · right
    have hinner : r :: rest <:+ body ++ (lines ++ after) := by
      have hsuffix := List.suffix_of_suffix_length_le hp h.guard_suffix (Nat.le_of_lt hlt)
      rcases List.suffix_cons_iff.mp hsuffix with heq | hsuffix
      · rw [heq] at hlt
        exact absurd hlt (Nat.lt_irrefl _)
      · exact hsuffix
    refine among_of_suffix ?_ (by rw [List.length_cons]; omega)
    -- under the guard there are no blocks
    obtain ⟨passed, heq⟩ := hinner
    rcases List.append_eq_append_iff.mp heq with ⟨left, hbody, hleft⟩ | ⟨left, -, hleft⟩
    · cases left with
      | nil => exact hleft ▸ List.suffix_rfl
      | cons r' left =>
        rw [← (List.cons.inj hleft).1] at hbody
        have hflat := h.flat r (by rw [hbody]; simp)
        rw [hheader] at hflat
        cases hflat
    · exact ⟨left, hleft.symm⟩
  · exact .inl (eq_of_suffix hp h.guard_suffix heq)
  · -- a block around the guard is also one around the lines
    exfalso
    have hguard : guard :: (body ++ (lines ++ after)) <:+ rest := by
      have hsuffix := List.suffix_of_suffix_length_le h.guard_suffix hp (Nat.le_of_lt hgt)
      rcases List.suffix_cons_iff.mp hsuffix with heq | hsuffix
      · rw [heq] at hgt
        exact absurd hgt (Nat.lt_irrefl _)
      · exact hsuffix
    obtain ⟨passed, x, behind, hlines, hskip⟩ := hq
    have hdeep := h.deep x (by rw [hlines]; simp)
    have hstop : x.depth ≤ r.depth := by
      have hhead := List.head?_dropWhile_not (fun r' : Row => decide (r.depth < r'.depth)) rest
      unfold skipBlock at hskip
      rw [hskip] at hhead
      simpa using hhead
    have hinside : r.depth < guard.depth := by
      obtain ⟨before, heq⟩ := hguard
      rw [hsplit] at heq
      rcases List.append_eq_append_iff.mp heq with ⟨left, htake, hleft⟩ | ⟨left, -, hleft⟩
      · cases left with
        | nil =>
          have hlen := congrArg List.length hleft
          simp only [List.nil_append, List.length_cons, List.length_append] at hlen hlength
          omega
        | cons r' left =>
          have hmem : guard ∈ rest.takeWhile (fun r' => decide (r.depth < r'.depth)) := by
            rw [htake, (List.cons.inj hleft).1]
            simp
          have hdeeper := List.mem_takeWhile_imp hmem
          exact of_decide_eq_true hdeeper
      · have hlen := congrArg List.length hleft
        simp only [List.length_cons, List.length_append] at hlen hlength
        omega
    omega

/-- The lines are entered through the guard only. -/
theorem enters (h : Shield rows front guard body lines after) (hp : p <:+ rows)
    (hgoes : Goes rows p q) (hq : Among lines after q) :
    p = guard :: (body ++ (lines ++ after)) ∨ Among lines after p := by
  cases hgoes with
  | step hstep => exact .inr (h.of_step hp hq hstep)
  | past hheader => exact h.of_past hp hq hheader
  | jump label =>
    -- a jump leads to a label, and no line sets one
    exfalso
    obtain ⟨passed, x, behind, hlines, hseek⟩ := hq
    have hhead := List.head?_dropWhile_not (fun r : Row => !r.sets label) rows
    unfold seek at hseek
    rw [hseek] at hhead
    have hplain := h.plain x (by rw [hlines]; simp)
    simp [Row.sets, hplain] at hhead

/-- Every way to one of the lines from elsewhere comes by the guard. -/
theorem mem_way (h : Shield rows front guard body lines after) {way : List (List Row)}
    (hway : way.IsChain (Goes rows))
    (hstart : ∀ p ∈ way.head?, p <:+ rows ∧ ¬Among lines after p)
    (hend : ∀ q ∈ way.getLast?, Among lines after q) (hne : way ≠ []) :
    guard :: (body ++ (lines ++ after)) ∈ way := by
  induction way with
  | nil => exact absurd rfl hne
  | cons p way ih =>
    obtain ⟨hp, hout⟩ := hstart p rfl
    cases way with
    | nil => exact absurd (hend p rfl) hout
    | cons q way =>
      obtain ⟨hgoes, hway⟩ := List.isChain_cons_cons.mp hway
      by_cases hq : Among lines after q
      · rcases h.enters hp hgoes hq with rfl | hin
        · exact List.mem_cons_self ..
        · exact absurd hin hout
      · refine List.mem_cons_of_mem _ (ih hway ?_ ?_ (by simp))
        · intro q' hq'
          rw [← Option.some.inj hq']
          exact ⟨hgoes.suffix hp, hq⟩
        · intro q' hq'
          exact hend q' (by rw [List.getLast?_cons_cons]; exact hq')

end Shield

end Renpy

end Rio
