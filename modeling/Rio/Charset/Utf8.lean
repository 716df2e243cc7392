/-!
# UTF-8

Decoding replaces each maximal ill-formed piece by one U+FFFD: a sequence is abandoned at the first
byte that cannot continue it, and that byte is read again as the start of the next one.
-/

namespace Rio.Charset.Utf8

/-- What a lead byte announces: how many bytes follow, the bounds of the first of them, and the bits
the lead byte contributes. -/
structure Lead where
  following : Nat
  low : UInt8
  high : UInt8
  bits : Nat
deriving Repr, DecidableEq

/-- The lead bytes. The bounds rule out overlong forms, surrogates and values beyond U+10FFFF. -/
def lead? (b : UInt8) : Option Lead :=
  if 0xc2 ≤ b && b ≤ 0xdf then some ⟨1, 0x80, 0xbf, b.toNat % 0x20⟩
  else if b == 0xe0 then some ⟨2, 0xa0, 0xbf, 0⟩
  else if b == 0xed then some ⟨2, 0x80, 0x9f, 0xd⟩
  else if 0xe1 ≤ b && b ≤ 0xef then some ⟨2, 0x80, 0xbf, b.toNat % 0x10⟩
  else if b == 0xf0 then some ⟨3, 0x90, 0xbf, 0⟩
  else if 0xf1 ≤ b && b ≤ 0xf3 then some ⟨3, 0x80, 0xbf, b.toNat % 8⟩
  else if b == 0xf4 then some ⟨3, 0x80, 0x8f, 4⟩
  else none

/-- Reads `n` more bytes of a sequence, the first within the bounds, onto the value so far.
Without a value the sequence broke off, and the rest starts at the byte that broke it. -/
def finish : (n : Nat) → (low high : UInt8) → (value : Nat) → List UInt8 → Option Nat × List UInt8
  | 0, _, _, value, bytes => (some value, bytes)
  | _ + 1, _, _, _, [] => (none, [])
  | n + 1, low, high, value, b :: bytes =>
    if low ≤ b && b ≤ high then finish n 0x80 0xbf (value * 0x40 + b.toNat % 0x40) bytes
    else (none, b :: bytes)

/-- The bytes after a lead are taken from the front. -/
theorem length_finish_le (n : Nat) (low high : UInt8) (value : Nat) (bytes : List UInt8) :
    (finish n low high value bytes).2.length ≤ bytes.length := by
  induction n generalizing low high value bytes with
  | zero => simp [finish]
  | succ n ih =>
    cases bytes with
    | nil => simp [finish]
    | cons b bytes =>
      rw [finish]
      split
      · exact Nat.le_trans (ih ..) (by simp)
      · simp

/-- Decoding; total, malformed pieces giving U+FFFD. -/
def decode : List UInt8 → List Char
  | [] => []
  | b :: bytes =>
    if b < 0x80 then Char.ofNat b.toNat :: decode bytes
    else
      match lead? b with
      | none => '�' :: decode bytes
      | some l =>
        let read := finish l.following l.low l.high l.bits bytes
        have := length_finish_le l.following l.low l.high l.bits bytes
        (read.1.elim '�' Char.ofNat) :: decode read.2
termination_by bytes => bytes.length

/-- Whether the bytes are well formed throughout. -/
def isWellFormed : List UInt8 → Bool
  | [] => true
  | b :: bytes =>
    if b < 0x80 then isWellFormed bytes
    else
      match lead? b with
      | none => false
      | some l =>
        let read := finish l.following l.low l.high l.bits bytes
        have := length_finish_le l.following l.low l.high l.bits bytes
        read.1.isSome && isWellFormed read.2
termination_by bytes => bytes.length

end Rio.Charset.Utf8
