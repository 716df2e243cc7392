/-!
# Surrogates

UTF-16 writes a character beyond U+FFFF as a pair of units, a high surrogate and a low one.
-/

namespace Rio.Unicode

/-- A unit that opens a pair. -/
def isHighSurrogate (u : Nat) : Bool := 0xd800 ≤ u && u < 0xdc00

/-- A unit that closes a pair. -/
def isLowSurrogate (u : Nat) : Bool := 0xdc00 ≤ u && u < 0xe000

/-- The character of a pair. -/
def ofSurrogates (high low : Nat) : Char :=
  Char.ofNat (0x10000 + 0x400 * (high - 0xd800) + (low - 0xdc00))

end Rio.Unicode
