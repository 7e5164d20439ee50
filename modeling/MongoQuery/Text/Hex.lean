/-!
# Hexadecimal text

A byte is written as two hexadecimal digits, in lower case; either case is read.
-/

namespace MongoQuery.Hex

/-- The digit of a number below sixteen. -/
def digit (n : Nat) : Char :=
  if n < 10 then Char.ofNat (48 + n) else Char.ofNat (87 + n)

/-- The number that a digit of either case writes. -/
def value? (c : Char) : Option Nat :=
  let n := c.toNat
  if 48 ≤ n ∧ n < 58 then some (n - 48)
  else if 97 ≤ n ∧ n < 103 then some (n - 87)
  else if 65 ≤ n ∧ n < 71 then some (n - 55)
  else none

/-- The digits of a natural number without leading zeros. -/
def ofNat (n : Nat) : List Char :=
  Nat.toDigits 16 n

/-- A number in a given count of digits; digits beyond it are left out. -/
def padded : Nat → Nat → List Char
  | 0, _ => []
  | width + 1, n => padded width (n / 16) ++ [digit (n % 16)]

/-- The digits of a run of bytes, two for each. -/
def encode (bytes : List UInt8) : List Char :=
  bytes.flatMap fun b => padded 2 b.toNat

/-- The bytes that a run of digits writes. -/
def decode? : List Char → Option (List UInt8)
  | [] => some []
  | [_] => none
  | high :: low :: rest => do
    let high ← value? high
    let low ← value? low
    let bytes ← decode? rest
    some (UInt8.ofNat (16 * high + low) :: bytes)

end MongoQuery.Hex
