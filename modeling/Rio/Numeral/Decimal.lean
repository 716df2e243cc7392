import Rio.Numeral.Shortest

/-!
# Decimal text of floating-point numbers

Whole numbers are written in full with one zero after the point. Other numbers are written with the
fewest places that read back, never with an exponent.
-/

namespace Rio.Numeral

/-- A floating-point number taken apart: `significand * 2 ^ exponent` with its sign. -/
inductive Parts where
  | notANumber
  | infinite (negative : Bool)
  | finite (negative : Bool) (significand : Nat) (exponent : Int)
deriving Repr, DecidableEq

/-- The parts of a binary64 bit pattern. -/
def Parts.ofBits (bits : UInt64) : Parts :=
  let n := bits.toNat
  let negative := 0x8000000000000000 ≤ n
  let exponent : Nat := n / 0x10000000000000 % 0x800
  let fraction : Nat := n % 0x10000000000000
  if exponent == 0x7ff then
    if fraction == 0 then infinite negative else notANumber
  else if exponent == 0 then finite negative fraction (-1074)
  else finite negative (0x10000000000000 + fraction) (exponent - 1075)

/-- A number of units of the last of `p` places, `p` positive. -/
def positional (units p : Nat) : String :=
  let one := Nat.pow 10 p
  let fraction := Nat.toDigits 10 (units % one)
  toString (units / one) ++ "." ++
    String.ofList (List.replicate (p - fraction.length) '0' ++ fraction)

/-- The text of `significand * 2 ^ exponent`. -/
def magnitude (significand : Nat) (exponent : Int) : String :=
  match exponent with
  | .ofNat e => toString (significand * Nat.pow 2 e) ++ ".0"
  | .negSucc e =>
    let k := e + 1
    let one := Nat.pow 2 k
    if significand % one == 0 then toString (significand / one) ++ ".0"
    else
      let (units, p) := shortest significand k
      positional units p

/-- The text of a number taken apart; a zero keeps its sign. -/
def Parts.text : Parts → String
  | notANumber => "NaN"
  | infinite negative => (if negative then "-" else "") ++ "inf"
  | finite negative significand exponent =>
    (if negative then "-" else "") ++ magnitude significand exponent

/-- The text of a floating-point number. -/
def ofFloat (x : Float) : String :=
  (Parts.ofBits x.toBits).text

/-- A count of milliseconds in seconds: the nearest floating-point number to the count, divided. -/
def seconds (ms : Int) : Float :=
  Float.ofInt ms / 1000.0

/-- The text of a count of milliseconds, in seconds. -/
def secondsText (ms : Int) : String :=
  ofFloat (seconds ms)

end Rio.Numeral
