import PeerProtocol.Text.Decimal

/-!
# Decimal texts are numbers within a bound

A text is read as a number exactly if it writes the number and the number is below the bound
(`unsigned?_eq_some_iff`). The reader never counts beyond the bound; what it counts is the value of
the digits as far as that (`digitsValue?_eq`).
-/

namespace PeerProtocol.Text

/-- The value of digits that follow those of `high`. -/
def numeralFrom (high : Nat) : List Char → Nat
  | [] => high
  | c :: rest => numeralFrom (10 * high + (c.toNat - 48)) rest

/-- `Numeral digits value` holds if the digits, one or more and with leading zeros as they like,
are the value in decimal. -/
structure Numeral (digits : List Char) (value : Nat) : Prop where
  nonempty : digits ≠ []
  all_isDigit : digits.all Char.isDigit
  worth : numeralFrom 0 digits = value

/-- `Writes text value` holds if the text is the value in decimal, perhaps after a plus sign. -/
inductive Writes : List Char → Nat → Prop where
  | plain {digits : List Char} {value : Nat} : Numeral digits value → Writes digits value
  | plus {digits : List Char} {value : Nat} : Numeral digits value → Writes ('+' :: digits) value

/-- A plus sign is no part of the digits. -/
theorem not_numeral_plus {rest : List Char} {value : Nat} : ¬ Numeral ('+' :: rest) value :=
  fun h => absurd (List.all_eq_true.1 h.all_isDigit '+' List.mem_cons_self) (by decide)

/-- A character has a value exactly if it is a digit. -/
theorem digitValue?_eq (c : Char) :
    digitValue? c = if c.isDigit then some (c.toNat - 48) else none := by
  have hdigit : c.isDigit ↔ '0' ≤ c ∧ c ≤ '9' := by
    rw [Char.isDigit, Bool.and_eq_true, decide_eq_true_eq, decide_eq_true_eq]
    exact Iff.rfl
  simp only [digitValue?, hdigit]

/-- Digits are read as their value, as far as the bound; nothing else is read. -/
theorem digitsValue?_eq {bound high capped : Nat} {digits : List Char}
    (hcapped : capped = min bound high) :
    digitsValue? bound capped digits =
      if digits.all Char.isDigit then some (min bound (numeralFrom high digits)) else none := by
  induction digits generalizing high capped with
  | nil => rw [hcapped]; rfl
  | cons c rest ih =>
    rw [digitsValue?, digitValue?_eq, List.all_cons]
    cases c.isDigit
    next => rfl
    next =>
      have hnext : min bound (10 * capped + (c.toNat - 48)) =
          min bound (10 * high + (c.toNat - 48)) := by omega
      exact ih hnext

/-- One digit or more are read as the number that they are, if it is below the bound. -/
theorem filter_digitsValue?_eq_some_iff {bound value : Nat} {digits : List Char} :
    (if digits.isEmpty then none else (digitsValue? bound 0 digits).filter (· < bound)) =
        some value ↔
      Numeral digits value ∧ value < bound := by
  have hzero : 0 = min bound 0 := by omega
  rw [digitsValue?_eq hzero, Option.ite_none_left_eq_some, List.isEmpty_iff]
  constructor
  next =>
    rintro ⟨hnonempty, h⟩
    obtain ⟨h, hbound⟩ := Option.filter_eq_some_iff.1 h
    obtain ⟨hdigits, hmin⟩ := Option.ite_none_right_eq_some.1 h
    have hbound : value < bound := of_decide_eq_true hbound
    have hmin : min bound (numeralFrom 0 digits) = value := Option.some.inj hmin
    exact ⟨⟨hnonempty, hdigits, by omega⟩, hbound⟩
  next =>
    rintro ⟨⟨hnonempty, hdigits, rfl⟩, hbound⟩
    have hmin : min bound (numeralFrom 0 digits) = numeralFrom 0 digits := by omega
    rw [if_pos hdigits, hmin]
    exact ⟨hnonempty, Option.filter_eq_some_iff.2 ⟨rfl, decide_eq_true hbound⟩⟩

/-- A text is read as the number that it writes, if the number is below the bound. -/
theorem unsigned?_eq_some_iff {bound value : Nat} {text : List Char} :
    unsigned? bound text = some value ↔ Writes text value ∧ value < bound := by
  unfold unsigned?
  split
  next rest =>
    rw [filter_digitsValue?_eq_some_iff]
    constructor
    next => exact fun ⟨hnumeral, hbound⟩ => ⟨.plus hnumeral, hbound⟩
    next =>
      rintro ⟨hwrites, hbound⟩
      cases hwrites with
      | plain hnumeral => exact absurd hnumeral not_numeral_plus
      | plus hnumeral => exact ⟨hnumeral, hbound⟩
  next hplain =>
    rw [filter_digitsValue?_eq_some_iff]
    constructor
    next => exact fun ⟨hnumeral, hbound⟩ => ⟨.plain hnumeral, hbound⟩
    next =>
      rintro ⟨hwrites, hbound⟩
      cases hwrites with
      | plain hnumeral => exact ⟨hnumeral, hbound⟩
      | plus hnumeral => exact absurd rfl (hplain _)

/-- Leading zeros and a plus sign are read; a number at the bound is not. -/
example : unsigned? 65536 "+0065535".toList = some 65535 ∧
    unsigned? 65536 "65536".toList = none := by
  decide

end PeerProtocol.Text
