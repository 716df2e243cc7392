/-!
# Sets of code points

A property of characters is given as the list of its ranges, in increasing order. Look-up stops at
the first range beyond the character, so characters in the low blocks are decided at once.
-/

namespace Rio.Unicode

/-- Inclusive ranges of code points in increasing order. -/
abbrev Ranges := List (Nat × Nat)

/-- Membership of a code point; relies on the increasing order to stop early. -/
def Ranges.contains : Ranges → Nat → Bool
  | [], _ => false
  | (lo, hi) :: rest, n => if n < lo then false else n ≤ hi || contains rest n

end Rio.Unicode
