import Rio.Unicode.Surrogate

/-!
# UTF-16

Two bytes form a unit, in either order. A high and a low surrogate together form one character; any
surrogate out of place is U+FFFD, and so is a last byte without a partner.
-/

namespace Rio.Charset.Utf16

open Unicode (isHighSurrogate isLowSurrogate ofSurrogates)

/-- Which byte of a unit comes first. -/
inductive ByteOrder where
  | little
  | big
deriving Repr, DecidableEq

/-- The value of a unit from its bytes as they stand. -/
def ByteOrder.unit (order : ByteOrder) (first second : UInt8) : Nat :=
  match order with
  | .little => first.toNat + 0x100 * second.toNat
  | .big => 0x100 * first.toNat + second.toNat

/-- Decoding of units; `high` is a high surrogate that waits for its partner. -/
def decodeUnits (order : ByteOrder) (high : Option Nat) : List UInt8 → List Char
  | first :: second :: bytes =>
    let u := order.unit first second
    match high with
    | some h =>
      if isLowSurrogate u then ofSurrogates h u :: decodeUnits order none bytes
      else if isHighSurrogate u then '�' :: decodeUnits order (some u) bytes
      else '�' :: Char.ofNat u :: decodeUnits order none bytes
    | none =>
      if isHighSurrogate u then decodeUnits order (some u) bytes
      else if isLowSurrogate u then '�' :: decodeUnits order none bytes
      else Char.ofNat u :: decodeUnits order none bytes
  | [_] => ['�']
  | [] => if high.isSome then ['�'] else []

/-- Decoding; total, malformed units giving U+FFFD. -/
def decode (order : ByteOrder) (bytes : List UInt8) : List Char :=
  decodeUnits order none bytes

end Rio.Charset.Utf16
