import Rio.Charset.ShiftJis.Rows

/-!
# Shift_JIS

One byte is ASCII or a half-width katakana. A lead byte and a trail byte together point into the
JIS X 0208 index; the pointers between its two halves are the private characters from U+E000. A
pair that selects nothing is one U+FFFD, and an ASCII trail byte then counts again as a character
of its own.
-/

namespace Rio.Charset.ShiftJis

/-- Bytes that open a pair. -/
def isLead (b : UInt8) : Bool :=
  (0x81 ≤ b && b ≤ 0x9f) || (0xe0 ≤ b && b ≤ 0xfc)

/-- Bytes that close a pair. -/
def isTrail (b : UInt8) : Bool :=
  (0x40 ≤ b && b ≤ 0x7e) || (0x80 ≤ b && b ≤ 0xfc)

/-- The pointer of a pair: 188 trail bytes to each lead byte. -/
def pointer (lead trail : UInt8) : Nat :=
  (lead.toNat - (if lead < 0xa0 then 0x81 else 0xc1)) * 188 +
    (trail.toNat - (if trail < 0x7f then 0x40 else 0x41))

/-- The first pointer of the private block. -/
def privateFirst : Nat := 8836

/-- The last pointer of the private block. -/
def privateLast : Nat := 10715

/-- The character a pointer selects. -/
def charAt? (p : Nat) : Option Char :=
  if privateFirst ≤ p ∧ p ≤ privateLast then
    some (Char.ofNat (0xe000 + (p - privateFirst)))
  else
    match rows.find? (·.1 == p / 94) with
    | none => none
    | some (_, row) => row.toList[p % 94]?.filter (· != '�')

/-- The character of a pair. -/
def pair? (lead trail : UInt8) : Option Char :=
  if isTrail trail then charAt? (pointer lead trail) else none

/-- The character of a byte that stands alone; bytes without one give U+FFFD. -/
def single (b : UInt8) : Char :=
  if b ≤ 0x80 then Char.ofNat b.toNat
  else if 0xa1 ≤ b && b ≤ 0xdf then Char.ofNat (0xff61 - 0xa1 + b.toNat)
  else '�'

/-- Decoding; total, malformed bytes giving U+FFFD. -/
def decode : List UInt8 → List Char
  | [] => []
  | [b] => [if isLead b then '�' else single b]
  | b :: t :: rest =>
    if isLead b then
      match pair? b t with
      | some c => c :: decode rest
      | none => if t < 0x80 then '�' :: decode (t :: rest) else '�' :: decode rest
    else single b :: decode (t :: rest)

end Rio.Charset.ShiftJis
