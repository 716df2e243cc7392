import Rio.Bytecode.Instruction
import Rio.Numeral.Decimal
import Rio.Numeral.Hex

/-!
# Words

Numbers and the names of mnemonics and transitions are words: texts of letters, digits and a few
marks that stand as they are wherever they are put, since they have neither quotes nor
backslashes, braces, blanks or line breaks.
-/

namespace Rio.Literal

/-- The characters of words. -/
def isWordChar (c : Char) : Bool :=
  c.isAlphanum || c == '_' || c == '-' || c == '.'

/-- A word. -/
def IsWord (s : String) : Prop :=
  s.toList.all isWordChar = true

/-- A literal is taken apart into its characters when this is applied to it. -/
theorem isWord_ofList {cs : List Char} (h : cs.all isWordChar = true) :
    IsWord (String.ofList cs) := by
  unfold IsWord
  rwa [String.toList_ofList]

/-- Words written one after the other make a word. -/
theorem IsWord.append {s t : String} (hs : IsWord s) (ht : IsWord t) : IsWord (s ++ t) := by
  unfold IsWord at *
  rw [String.toList_append, List.all_append, hs, ht, Bool.and_true]

theorem IsWord.isWordChar {s : String} (h : IsWord s) {c : Char} (hc : c ∈ s.toList) :
    isWordChar c = true :=
  List.all_eq_true.mp h c hc

/-! ## Numbers -/

/-- The digits of a number are characters of words, in bases up to that of hexadecimal numbers. -/
theorem all_toDigits {b : Nat} (hb : 1 < b) (hle : b ≤ 16) (n : Nat) :
    (Nat.toDigits b n).all isWordChar = true := by
  have hdigit : ∀ d < 16, isWordChar d.digitChar = true := by decide
  induction n using Nat.strongRecOn with
  | ind n ih =>
    rw [Nat.toDigits_eq_if hb]
    split
    · next hlt => simp [hdigit n (by omega)]
    · have hmod := Nat.mod_lt n (show 0 < b by omega)
      have hdiv : n / b < n := Nat.div_lt_self (by omega) hb
      rw [List.all_append, ih _ hdiv]
      simp [hdigit (n % b) (by omega)]

theorem isWord_toString (n : Nat) : IsWord (toString n) :=
  isWord_ofList (all_toDigits (by decide) (by decide) n)

/-- The sign of a number is a character of words too. -/
theorem isWord_intToString (n : Int) : IsWord (toString n) := by
  cases n with
  | ofNat n => exact isWord_toString n
  | negSucc n => exact IsWord.append (s := "-") (isWord_ofList rfl) (isWord_toString (n + 1))

theorem isWord_hex (n : Nat) : IsWord (Numeral.hex n) :=
  isWord_ofList (all_toDigits (by decide) (by decide) n)

/-- So is the mark of a hexadecimal number. -/
theorem isWord_hexLiteral (n : Nat) : IsWord (Numeral.hexLiteral n) :=
  IsWord.append (isWord_ofList rfl) (isWord_hex n)

/-- Where the point stands makes no difference. -/
theorem isWord_positional (units p : Nat) : IsWord (Numeral.positional units p) := by
  refine ((isWord_toString _).append (isWord_ofList rfl)).append (isWord_ofList ?_)
  rw [List.all_append, all_toDigits (by decide) (by decide), Bool.and_true, List.all_replicate]
  simp [isWordChar]

theorem isWord_magnitude (significand : Nat) (exponent : Int) :
    IsWord (Numeral.magnitude significand exponent) := by
  have hwhole : ∀ n : Nat, IsWord (toString n ++ ".0") :=
    fun n => (isWord_toString n).append (isWord_ofList rfl)
  cases exponent with
  | ofNat e => exact hwhole _
  | negSucc e =>
    unfold Numeral.magnitude
    dsimp only
    split
    · exact hwhole _
    · exact isWord_positional _ _

/-- A number is one word in whichever of its forms it is written. -/
theorem isWord_ofFloat (x : Float) : IsWord (Numeral.ofFloat x) := by
  have hsign : ∀ negative : Bool, IsWord (if negative then "-" else "") := by
    intro negative
    cases negative <;> exact isWord_ofList rfl
  unfold Numeral.ofFloat
  cases Numeral.Parts.ofBits x.toBits with
  | notANumber => exact isWord_ofList rfl
  | infinite negative => exact (hsign negative).append (isWord_ofList rfl)
  | finite negative significand exponent => exact (hsign negative).append (isWord_magnitude _ _)

/-! ## Names -/

/-- Every instruction has a word for its name. -/
theorem isWord_mnemonic (m : Mnemonic) : IsWord m.name := by
  cases m with
  | unnamed op => exact isWord_hexLiteral op.toNat
  | _ => exact isWord_ofList rfl

theorem isWord_direction (d : Direction) : IsWord d.name := by
  cases d <;> exact isWord_ofList rfl

/-- So has every transition, with its direction. -/
theorem isWord_transition (t : Transition) : IsWord t.name := by
  cases t with
  | wipe towards | dissolveToPush towards =>
    exact IsWord.append (isWord_ofList rfl) (isWord_direction towards)
  | wipeStrip towards | wipeAllStrip towards =>
    exact (IsWord.append (isWord_ofList rfl) (isWord_direction towards)).append (isWord_ofList rfl)
  | maskWipe sense | maskDissolve sense | maskWhiteOut sense =>
    cases sense <;> exact isWord_ofList rfl
  | rotate turn | xrotate turn | xrotateWave turn => cases turn <;> exact isWord_ofList rfl
  | _ => exact isWord_ofList rfl

end Rio.Literal
