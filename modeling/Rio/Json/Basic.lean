import Rio.Unicode.Surrogate

/-!
# JSON values

Values as a text gives them. String literals keep their written form, since a literal can be well
formed and yet stand for no text, and keys that are numbers are read from their digits. Numbers keep
their decimal form, so no precision is lost and integers can be told from fractions.
-/

namespace Rio.Json

open Unicode (isHighSurrogate isLowSurrogate ofSurrogates)

/-- A string literal: the characters between its quotes, escapes included. -/
structure Literal where
  raw : List Char
deriving Repr, DecidableEq

/-- A number `± significand * 10 ^ scale`; `whole` if it was written without a fraction and
without an exponent. -/
structure Number where
  negative : Bool
  significand : Nat
  scale : Int
  whole : Bool
deriving Repr, DecidableEq

/-- A value. The members of an object are in the order of the text, repeated keys included. -/
inductive Value where
  | null
  | bool (b : Bool)
  | number (n : Number)
  | string (s : Literal)
  | array (items : List Value)
  | object (members : List (Literal × Value))
deriving Repr

/-! ## Literals -/

/-- The value of a hexadecimal digit. -/
def hexDigit? (c : Char) : Option Nat :=
  if '0' ≤ c ∧ c ≤ '9' then some (c.toNat - '0'.toNat)
  else if 'a' ≤ c ∧ c ≤ 'f' then some (c.toNat - 'a'.toNat + 10)
  else if 'A' ≤ c ∧ c ≤ 'F' then some (c.toNat - 'A'.toNat + 10)
  else none

/-- The UTF-16 unit of four hexadecimal digits. -/
def unit? (a b c d : Char) : Option Nat := do
  return 0x1000 * (← hexDigit? a) + 0x100 * (← hexDigit? b) + 0x10 * (← hexDigit? c) +
    (← hexDigit? d)

/-- The character of a one-letter escape. -/
def shortEscape? (c : Char) : Option Char :=
  match c with
  | '"' => some '"'
  | '\\' => some '\\'
  | '/' => some '/'
  | 'b' => some '\x08'
  | 'f' => some '\x0c'
  | 'n' => some '\n'
  | 'r' => some '\r'
  | 't' => some '\t'
  | _ => none

/-- The characters that a literal stands for; none if it escapes half a surrogate pair. -/
def decodeLiteral : List Char → Option (List Char)
  | [] => some []
  | '\\' :: 'u' :: a :: b :: c :: d :: rest => do
    let u ← unit? a b c d
    if isLowSurrogate u then none
    else if isHighSurrogate u then
      match rest with
      | '\\' :: 'u' :: e :: f :: g :: h :: rest =>
        let low ← unit? e f g h
        if isLowSurrogate low then
          return ofSurrogates u low :: (← decodeLiteral rest)
        else none
      | _ => none
    else return Char.ofNat u :: (← decodeLiteral rest)
  | '\\' :: e :: rest => do
    let c ← shortEscape? e
    return c :: (← decodeLiteral rest)
  | c :: rest => (decodeLiteral rest).map (c :: ·)

/-- The text that a literal stands for. -/
def Literal.text? (s : Literal) : Option String :=
  (decodeLiteral s.raw).map String.ofList

/-! ## Numbers -/

/-- The natural number that a number is, if it was written as one. A minus sign rules it out even
before zero. -/
def Number.natural? (n : Number) : Option Nat :=
  if n.whole && !n.negative then some n.significand else none

/-- The least magnitude that is beyond the binary64 numbers once rounded. -/
def binary64Limit : Nat := Nat.pow 2 1024 - Nat.pow 2 970

/-- Whether a number rounds to a finite binary64 number. Exponents that settle the matter by their
size alone are not expanded. -/
def Number.isFinite (n : Number) : Bool :=
  let digits : Int := (Nat.toDigits 10 n.significand).length
  if n.significand == 0 || digits + n.scale < 308 then true
  else if digits + n.scale > 310 then false
  else
    match n.scale with
    | .ofNat e => n.significand * Nat.pow 10 e < binary64Limit
    | .negSucc e => n.significand < binary64Limit * Nat.pow 10 (e + 1)

/-! ## Holding values -/

mutual

/-- Whether a value can be held without being understood: all its strings are texts, all its numbers
are finite, and arrays and objects nest at most `depth` deep. -/
def Value.isHoldable (depth : Nat) : Value → Bool
  | .null | .bool _ => true
  | .number n => n.isFinite
  | .string s => s.text?.isSome
  | .array items => 0 < depth && itemsHoldable (depth - 1) items
  | .object members => 0 < depth && membersHoldable (depth - 1) members

/-- The same of each item of an array. -/
def itemsHoldable (depth : Nat) : List Value → Bool
  | [] => true
  | item :: items => item.isHoldable depth && itemsHoldable depth items

/-- The same of each member of an object and of its key. -/
def membersHoldable (depth : Nat) : List (Literal × Value) → Bool
  | [] => true
  | (key, value) :: members =>
    key.text?.isSome && value.isHoldable depth && membersHoldable depth members

end

end Rio.Json
