import PeerProtocol.Bytes

/-!
# Base32 text

Byte strings as letters and the digits 2 to 7, five bits a symbol, without padding. Writing uses
lower case; reading takes either case of a letter, and accepts only texts of the shortest length
for their bytes whose spare last bits are zero, so each byte string has one text up to case.
-/

namespace PeerProtocol.Text.Base32

/-- The symbol of a value below 32. -/
def symbol (value : Nat) : Char :=
  if value < 26 then Char.ofNat (97 + value) else Char.ofNat (24 + value)

/-- The value of a symbol, in either case. -/
def symbolValue? (c : Char) : Option Nat :=
  if 'a' ≤ c ∧ c ≤ 'z' then some (c.toNat - 97)
  else if 'A' ≤ c ∧ c ≤ 'Z' then some (c.toNat - 65)
  else if '2' ≤ c ∧ c ≤ '7' then some (c.toNat - 24)
  else none

/-- The low `width` digits of a number to the base 32, least significant first. -/
def digits : (width value : Nat) → List Nat
  | 0, _ => []
  | width + 1, value => value % 32 :: digits width (value / 32)

/-- The number whose digits to the base 32 these are, least significant first. -/
def ofDigits : List Nat → Nat
  | [] => 0
  | digit :: rest => digit + 32 * ofDigits rest

/-- The number of symbols for a number of bytes. -/
def symbolCount (bytes : Nat) : Nat :=
  (8 * bytes + 4) / 5

/-- The text of a byte string. -/
def encode (bytes : Bytes) : List Char :=
  let count := symbolCount bytes.length
  let value := Bytes.ofBigEndian bytes <<< (5 * count - 8 * bytes.length)
  ((digits count value).reverse).map symbol

/-- The byte string of a text in canonical form. -/
def decode? (text : List Char) : Option Bytes := do
  let values ← text.mapM symbolValue?
  let count := 5 * values.length / 8
  let spare := 5 * values.length - 8 * count
  let value := ofDigits values.reverse
  if spare < 5 ∧ value % (1 <<< spare) = 0 then
    pure (Bytes.bigEndian count (value >>> spare))
  else none

end PeerProtocol.Text.Base32
