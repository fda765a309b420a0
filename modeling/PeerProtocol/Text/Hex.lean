import PeerProtocol.Bytes

/-!
# Hexadecimal text

Lower-case hexadecimal, the form in which hashes, unreadable names and opaque payloads are shown.
-/

namespace PeerProtocol.Text

/-- The lower-case hexadecimal digit of a number below sixteen. -/
def hexDigit (value : Nat) : Char :=
  if value < 10 then Char.ofNat (48 + value) else Char.ofNat (87 + value)

/-- The two hexadecimal digits of a byte. -/
def hexByte (byte : UInt8) : List Char :=
  [hexDigit (byte.toNat / 16), hexDigit (byte.toNat % 16)]

/-- A byte string in hexadecimal, two digits a byte. -/
def hex (bytes : Bytes) : String :=
  bytes.foldl (fun text byte => (hexByte byte).foldl String.push text) ""

/-- The value of a hexadecimal digit in either case. -/
def hexValue? (c : Char) : Option Nat :=
  if '0' ≤ c ∧ c ≤ '9' then some (c.toNat - 48)
  else if 'a' ≤ c ∧ c ≤ 'f' then some (c.toNat - 87)
  else if 'A' ≤ c ∧ c ≤ 'F' then some (c.toNat - 55)
  else none

/-- The byte string of a text in hexadecimal. -/
def ofHex? : List Char → Option Bytes
  | [] => some []
  | high :: low :: rest => do
      let high ← hexValue? high
      let low ← hexValue? low
      let bytes ← ofHex? rest
      some (UInt8.ofNat (16 * high + low) :: bytes)
  | _ => none

/-- The hexadecimal digits of a number without leading zeros; zero is `0`. -/
def hexNumber (value : Nat) : String :=
  String.ofList (Nat.toDigits 16 value)

/-- The hexadecimal digits of a number, filled with zeros to at least `width`. -/
def hexPadded (width value : Nat) : String :=
  let digits := Nat.toDigits 16 value
  String.ofList (List.replicate (width - digits.length) '0' ++ digits)

end PeerProtocol.Text
