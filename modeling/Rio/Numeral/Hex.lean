/-!
# Hexadecimal numerals

Lower case, without a sign and without leading zeros unless a width is asked for.
-/

namespace Rio.Numeral

/-- Hexadecimal digits of a number. -/
def hex (n : Nat) : String :=
  String.ofList (Nat.toDigits 16 n)

/-- An address or code as it is written in listings. -/
def hexLiteral (n : Nat) : String :=
  "0x" ++ hex n

/-- A byte in two hexadecimal digits. -/
def hexByte (b : UInt8) : String :=
  if b < 0x10 then "0" ++ hex b.toNat else hex b.toNat

end Rio.Numeral
