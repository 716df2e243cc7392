/-!
# Shortest decimals

A fraction `m / 2 ^ k` read as a binary floating-point number stands for all reals that round to it.
`shortest` finds the decimal with the fewest places among them, and of two such decimals the nearer
one; everything is exact arithmetic on natural numbers.
-/

namespace Rio.Numeral

/-- The significand at which the gap to the number below is half the gap to the number above. -/
def gapChange : Nat := 0x10000000000000

/-- Of the two neighbours of `m / 2 ^ k` with `p` decimal places, the one that rounds to it, as a
count of units of the last place. The ends of the interval belong to it for an even significand
only. If both neighbours qualify the nearer one wins, the upper one on a tie. -/
def neighbour? (m k p : Nat) : Option Nat :=
  let gap := Nat.pow 10 p
  let one := Nat.pow 2 k
  let below := m * gap / one
  let rest := m * gap % one
  let within (distance : Nat) : Bool :=
    if m % 2 == 0 then distance ≤ gap else distance < gap
  let down := within (if m == gapChange then 4 * rest else 2 * rest)
  let up := within (2 * (one - rest))
  if up && (!down || one ≤ 2 * rest) then some (below + 1)
  else if down then some below
  else none

/-- The search over places from `p` on, with `n` attempts left; `m / 2 ^ k` itself has `k`
places. -/
def shortestFrom (m k : Nat) : (n p : Nat) → Nat × Nat
  | 0, p => (m * Nat.pow 10 p / Nat.pow 2 k, p)
  | n + 1, p =>
    match neighbour? m k p with
    | some d => (d, p)
    | none => shortestFrom m k n (p + 1)

/-- The shortest decimal for `m / 2 ^ k`: units of the last place, and the number of places. -/
def shortest (m k : Nat) : Nat × Nat :=
  shortestFrom m k k 0

end Rio.Numeral
