/-!
# Decimal text

Numbers as settings and addresses write them: ASCII digits, at most one leading plus sign, and a
value within the bound of the type that is read.
-/

namespace PeerProtocol.Text

/-- The value of an ASCII decimal digit. -/
def digitValue? (c : Char) : Option Nat :=
  if '0' ≤ c ∧ c ≤ '9' then some (c.toNat - 48) else none

/-- The value of a string of ASCII digits, most significant first, continuing from `high`. Every
value from `bound` on is read as `bound`. -/
def digitsValue? (bound high : Nat) : List Char → Option Nat
  | [] => some high
  | c :: rest => do
      let digit ← digitValue? c
      digitsValue? bound (min bound (10 * high + digit)) rest

/-- A decimal number with at least one digit, an optional plus sign before it, below `bound`. -/
def unsigned? (bound : Nat) (text : List Char) : Option Nat :=
  let digits := match text with
    | '+' :: rest => rest
    | digits => digits
  if digits.isEmpty then none
  else (digitsValue? bound 0 digits).filter (· < bound)

end PeerProtocol.Text
