import PeerProtocol.Text.Base32

/-!
# Base32 texts are canonical

A text that is read as base32 is, in lower case, the text of the bytes that it is read as
(`encode_of_decode?`), every written text is in lower case (`map_toLower_encode`), and the text of
some bytes is read as these bytes (`decode?_encode`). What is read consists of letters and digits of
base32 in either case, and where these fill whole bytes nothing else is asked of them
(`exists_decode?_iff`).
-/

namespace PeerProtocol.Text.Base32

open Bytes

/-- Digits are below the base. -/
theorem lt_of_mem_digits {width value digit : Nat} (h : digit ∈ digits width value) :
    digit < 32 := by
  induction width generalizing value with
  | zero => cases h
  | succ width ih =>
    rcases List.mem_cons.1 h with rfl | hrest
    · exact Nat.mod_lt value (by decide)
    · exact ih hrest

/-- Digits below the base are the digits of their number. -/
theorem digits_ofDigits {values : List Nat} (h : ∀ value ∈ values, value < 32) :
    digits values.length (ofDigits values) = values := by
  induction values with
  | nil => rfl
  | cons value rest ih =>
    have hvalue : value < 32 := h value List.mem_cons_self
    have hhead : (value + 32 * ofDigits rest) % 32 = value := by omega
    have htail : (value + 32 * ofDigits rest) / 32 = ofDigits rest := by omega
    rw [List.length_cons, ofDigits, digits, hhead, htail,
      ih fun other hother => h other (List.mem_cons_of_mem value hother)]

/-- A width of bytes holds the numbers of so many bits. -/
theorem span_eq (width : Nat) : span width = 1 <<< (8 * width) := by
  induction width with
  | zero => rfl
  | succ width ih =>
    rw [span, ih, Nat.mul_add, Nat.shiftLeft_add]
    omega

/-- The number of digits below the base is below the bound of their count. -/
theorem ofDigits_lt {values : List Nat} (h : ∀ value ∈ values, value < 32) :
    ofDigits values < 1 <<< (5 * values.length) := by
  induction values with
  | nil => decide
  | cons value rest ih =>
    have hvalue : value < 32 := h value List.mem_cons_self
    have hrest : ofDigits rest < 1 <<< (5 * rest.length) :=
      ih fun other hother => h other (List.mem_cons_of_mem value hother)
    rw [List.length_cons, ofDigits, Nat.mul_add, Nat.shiftLeft_add]
    omega

/-- The front of a number is below the bound of the bits that are left of it. -/
theorem shiftRight_lt {value bits spare : Nat} (h : value < 1 <<< (bits + spare)) :
    value >>> spare < 1 <<< bits := by
  rw [Nat.shiftLeft_add, Nat.shiftLeft_eq _ spare, Nat.mul_comm] at h
  rw [Nat.shiftRight_eq_div_pow]
  exact Nat.div_lt_of_lt_mul h

/-- Bits that are zero may be taken off and put back. -/
theorem shiftLeft_shiftRight_of_mod {value spare : Nat} (h : value % (1 <<< spare) = 0) :
    (value >>> spare) <<< spare = value := by
  rw [Nat.one_shiftLeft] at h
  rw [Nat.shiftLeft_eq, Nat.shiftRight_eq_div_pow]
  exact Nat.div_mul_cancel (Nat.dvd_of_mod_eq_zero h)

/-- The symbols are in lower case. -/
theorem toLower_symbol {value : Nat} (h : value < 32) : (symbol value).toLower = symbol value := by
  have hall : ∀ value < 32, (symbol value).toLower = symbol value := by decide
  exact hall value h

/-- Characters with a value are among the 128 characters of ASCII. -/
theorem lt_of_symbolValue? {c : Char} {value : Nat} (h : symbolValue? c = some value) :
    c.toNat < 128 := by
  unfold symbolValue? at h
  split at h
  next hlower => exact Nat.lt_of_le_of_lt (Char.le_def.1 hlower.2) (by decide)
  next =>
    split at h
    next hupper => exact Nat.lt_of_le_of_lt (Char.le_def.1 hupper.2) (by decide)
    next =>
      split at h
      next hdigit => exact Nat.lt_of_le_of_lt (Char.le_def.1 hdigit.2) (by decide)
      next => cases h

/-- A character with a value is a symbol in either case. -/
theorem symbol_of_symbolValue? {c : Char} {value : Nat} (h : symbolValue? c = some value) :
    value < 32 ∧ symbol value = c.toLower := by
  -- The characters of ASCII can be gone through.
  have hall : ∀ code < 128, ∀ value ∈ symbolValue? (Char.ofNat code),
      value < 32 ∧ symbol value = (Char.ofNat code).toLower := by decide
  have hvalue := hall c.toNat (lt_of_symbolValue? h) value
  rw [Char.ofNat_toNat] at hvalue
  exact hvalue h

/-- The values of a text spell it in lower case. -/
theorem map_symbol_of_mapM {text : List Char} {values : List Nat}
    (h : text.mapM symbolValue? = some values) :
    (∀ value ∈ values, value < 32) ∧ values.map symbol = text.map Char.toLower := by
  induction text generalizing values with
  | nil =>
    obtain rfl : [] = values := Option.some.inj h
    exact ⟨fun _ hmem => absurd hmem List.not_mem_nil, rfl⟩
  | cons c text ih =>
    simp only [List.mapM_cons, Option.bind_eq_bind, Option.bind_eq_some_iff, Option.pure_def,
      Option.some.injEq] at h
    obtain ⟨value, hvalue, rest, hrest, rfl⟩ := h
    obtain ⟨hlt, hsymbol⟩ := symbol_of_symbolValue? hvalue
    obtain ⟨hlts, hsymbols⟩ := ih hrest
    refine ⟨?_, ?_⟩
    · intro other hother
      rcases List.mem_cons.1 hother with rfl | hother
      · exact hlt
      · exact hlts other hother
    · rw [List.map_cons, List.map_cons, hsymbol, hsymbols]

/-- A text is, in lower case, the text of the bytes that it is read as. -/
theorem encode_of_decode? {text : List Char} {bytes : Bytes} (h : decode? text = some bytes) :
    encode bytes = text.map Char.toLower := by
  simp only [decode?, Option.bind_eq_bind, Option.bind_eq_some_iff] at h
  obtain ⟨values, hvalues, h⟩ := h
  obtain ⟨hlt, hsymbols⟩ := map_symbol_of_mapM hvalues
  split at h
  next hspare =>
    obtain rfl := Option.some.inj h
    generalize hcount : 5 * values.length / 8 = count at hspare h ⊢
    generalize hrest : 5 * values.length - 8 * count = spare at hspare h ⊢
    have hdigits : ∀ value ∈ values.reverse, value < 32 := fun value hvalue =>
      hlt value (List.mem_reverse.1 hvalue)
    have hbits : 5 * values.length = 8 * count + spare := by omega
    -- The bytes hold all bits but the spare ones, which are zero.
    have hbound : ofDigits values.reverse >>> spare < span count := by
      have htotal := ofDigits_lt hdigits
      rw [List.length_reverse, hbits] at htotal
      rw [span_eq]
      exact shiftRight_lt htotal
    have hvalue : (ofDigits values.reverse >>> spare) <<< spare = ofDigits values.reverse :=
      shiftLeft_shiftRight_of_mod hspare.2
    have hsymbolCount : symbolCount count = values.length := by
      unfold symbolCount
      omega
    have hback := digits_ofDigits hdigits
    rw [List.length_reverse] at hback
    simp only [encode, length_bigEndian, ofBigEndian_bigEndian, Nat.mod_eq_of_lt hbound,
      hsymbolCount, hrest, hvalue, hback, List.reverse_reverse]
    exact hsymbols
  next => cases h

/-- Texts are written in lower case. -/
theorem map_toLower_encode (bytes : Bytes) : (encode bytes).map Char.toLower = encode bytes := by
  unfold encode
  rw [List.map_map]
  refine List.map_congr_left fun value hvalue => ?_
  exact toLower_symbol (lt_of_mem_digits (List.mem_reverse.1 hvalue))

/-! ## Reading what was written -/

/-- So many digits. -/
theorem length_digits (width value : Nat) : (digits width value).length = width := by
  induction width generalizing value with
  | zero => rfl
  | succ width ih => rw [digits, List.length_cons, ih]

/-- The number of the low digits of a number is the part of it that they hold. -/
theorem ofDigits_digits (width value : Nat) :
    ofDigits (digits width value) = value % (1 <<< (5 * width)) := by
  induction width generalizing value with
  | zero => simp [digits, ofDigits, Nat.mod_one]
  | succ width ih =>
    have hspan : 1 <<< (5 * (width + 1)) = 32 * (1 <<< (5 * width)) := by
      rw [Nat.mul_add, Nat.shiftLeft_add]
      omega
    rw [digits, ofDigits, ih, hspan, Nat.mod_mul]

/-- A symbol has the value that it stands for. -/
theorem symbolValue?_symbol {value : Nat} (h : value < 32) :
    symbolValue? (symbol value) = some value := by
  have hall : ∀ value < 32, symbolValue? (symbol value) = some value := by decide
  exact hall value h

/-- The symbols of values below the base have these values. -/
theorem mapM_symbol {values : List Nat} (h : ∀ value ∈ values, value < 32) :
    (values.map symbol).mapM symbolValue? = some values := by
  induction values with
  | nil => rfl
  | cons value rest ih =>
    have hrest := ih fun other hother => h other (List.mem_cons_of_mem value hother)
    rw [List.map_cons, List.mapM_cons, symbolValue?_symbol (h value List.mem_cons_self), hrest]
    rfl

/-- The text of some bytes is read as these bytes. -/
theorem decode?_encode (bytes : Bytes) : decode? (encode bytes) = some bytes := by
  have hbound : ofBigEndian bytes < 1 <<< (8 * bytes.length) := by
    have hlt := ofLittleEndian_lt bytes.reverse
    rwa [List.length_reverse, span_eq] at hlt
  generalize hcount : symbolCount bytes.length = count
  generalize hspare : 5 * count - 8 * bytes.length = spare
  have hfew : spare < 5 := by
    unfold symbolCount at hcount
    omega
  have hbits : 5 * count = 8 * bytes.length + spare := by
    unfold symbolCount at hcount
    omega
  have hlength : 5 * count / 8 = bytes.length := by omega
  -- All digits of the shifted number are written, and the spare bits are zero.
  have hfits : ofBigEndian bytes <<< spare < 1 <<< (5 * count) := by
    rw [hbits, Nat.shiftLeft_add, Nat.shiftLeft_eq _ spare, Nat.shiftLeft_eq _ spare]
    exact Nat.mul_lt_mul_of_pos_right hbound (Nat.two_pow_pos spare)
  have hdigits : ∀ value ∈ (digits count (ofBigEndian bytes <<< spare)).reverse, value < 32 :=
    fun value hvalue => lt_of_mem_digits (List.mem_reverse.1 hvalue)
  have hvalue : ofDigits (digits count (ofBigEndian bytes <<< spare)) =
      ofBigEndian bytes <<< spare := by
    rw [ofDigits_digits, Nat.mod_eq_of_lt hfits]
  have hzero : (ofBigEndian bytes <<< spare) % (1 <<< spare) = 0 := by
    rw [Nat.one_shiftLeft, Nat.shiftLeft_eq]
    exact Nat.mul_mod_left _ _
  have hback : bigEndian bytes.length (ofBigEndian bytes) = bytes := by
    have hreverse := littleEndian_ofLittleEndian bytes.reverse
    rw [List.length_reverse] at hreverse
    rw [bigEndian, ofBigEndian, hreverse, List.reverse_reverse]
  unfold decode? encode
  simp only [hcount, hspare, mapM_symbol hdigits, Option.bind_eq_bind, Option.bind_some,
    List.length_reverse, length_digits, hlength, List.reverse_reverse, hvalue]
  rw [if_pos ⟨hfew, hzero⟩, Nat.shiftLeft_shiftRight, hback]
  rfl

/-! ## What is read -/

/-- The capital letters, and the digits from 2 to 7. -/
def IsSymbol (c : Char) : Prop :=
  ('A' ≤ c ∧ c ≤ 'Z') ∨ ('2' ≤ c ∧ c ≤ '7')

instance (c : Char) : Decidable (IsSymbol c) :=
  inferInstanceAs (Decidable (_ ∨ _))

/-- Only characters of ASCII have capitals. -/
theorem toUpper_of_le {c : Char} (h : 128 ≤ c.toNat) : c.toUpper = c := by
  unfold Char.toUpper
  rw [dif_neg]
  rintro ⟨-, hle⟩
  have hcode : c.toNat ≤ 122 := hle
  omega

/-- A character has a value if its capital is a symbol, and the capital has the same value. -/
theorem symbolValue?_toUpper (c : Char) :
    symbolValue? c.toUpper = symbolValue? c ∧
      ((symbolValue? c).isSome = true ↔ IsSymbol c.toUpper) := by
  by_cases hascii : c.toNat < 128
  · have hall : ∀ code < 128, symbolValue? (Char.ofNat code).toUpper =
        symbolValue? (Char.ofNat code) ∧ ((symbolValue? (Char.ofNat code)).isSome = true ↔
          IsSymbol (Char.ofNat code).toUpper) := by decide
    have hcode := hall c.toNat hascii
    rwa [Char.ofNat_toNat] at hcode
  · have hle {last : Char} (hlast : c ≤ last) : c.toNat ≤ last.toNat := Char.le_def.1 hlast
    rw [toUpper_of_le (Nat.le_of_not_lt hascii)]
    refine ⟨rfl, iff_of_false (fun hsome => ?_) ?_⟩
    · obtain ⟨value, hvalue⟩ := Option.isSome_iff_exists.1 hsome
      exact hascii (lt_of_symbolValue? hvalue)
    · rintro (⟨-, hletter⟩ | ⟨-, hdigit⟩)
      · exact hascii (Nat.lt_of_le_of_lt (hle hletter) (by decide))
      · exact hascii (Nat.lt_of_le_of_lt (hle hdigit) (by decide))

/-- The capitals of a text are read as the same values as the text. -/
theorem mapM_toUpper (text : List Char) :
    (text.map Char.toUpper).mapM symbolValue? = text.mapM symbolValue? := by
  induction text with
  | nil => rfl
  | cons c text ih => rw [List.map_cons, List.mapM_cons, List.mapM_cons, ih,
      (symbolValue?_toUpper c).1]

/-- The capitals of a text are read as the same bytes as the text. -/
theorem decode?_toUpper (text : List Char) : decode? (text.map Char.toUpper) = decode? text := by
  unfold decode?
  rw [mapM_toUpper]

/-- A text has values if and only if its capitals are symbols. -/
theorem exists_mapM_iff {text : List Char} :
    (∃ values, text.mapM symbolValue? = some values) ↔
      ∀ c ∈ text.map Char.toUpper, IsSymbol c := by
  induction text with
  | nil => exact iff_of_true ⟨[], rfl⟩ fun _ hmem => absurd hmem List.not_mem_nil
  | cons c text ih =>
    rw [List.map_cons, List.forall_mem_cons, ← ih, ← (symbolValue?_toUpper c).2,
      Option.isSome_iff_exists]
    simp only [List.mapM_cons, Option.bind_eq_bind, Option.bind_eq_some_iff, Option.pure_def,
      Option.some.injEq]
    constructor
    · rintro ⟨_, value, hvalue, rest, hrest, rfl⟩
      exact ⟨⟨value, hvalue⟩, rest, hrest⟩
    · rintro ⟨⟨value, hvalue⟩, rest, hrest⟩
      exact ⟨value :: rest, value, hvalue, rest, hrest, rfl⟩

/-- The bytes of a text are as many as its symbols fill. -/
theorem length_of_decode? {text : List Char} {bytes : Bytes} (h : decode? text = some bytes) :
    text.length = symbolCount bytes.length := by
  have hlength := congrArg List.length (encode_of_decode? h)
  unfold encode at hlength
  rw [List.length_map, List.length_map, List.length_reverse, length_digits] at hlength
  exact hlength.symm

/-- A text whose symbols fill whole bytes is read if and only if its capitals are symbols. -/
theorem exists_decode?_iff {text : List Char} {count : Nat}
    (hfill : 5 * text.length = 8 * count) :
    (∃ bytes, decode? text = some bytes) ↔ ∀ c ∈ text.map Char.toUpper, IsSymbol c := by
  rw [← exists_mapM_iff]
  simp only [decode?, Option.bind_eq_bind, Option.bind_eq_some_iff]
  constructor
  · rintro ⟨_, values, hvalues, -⟩
    exact ⟨values, hvalues⟩
  · rintro ⟨values, hvalues⟩
    have hcount := congrArg List.length (map_symbol_of_mapM hvalues).2
    rw [List.length_map, List.length_map] at hcount
    -- Whole bytes leave no spare bits, so there is nothing that could be wrong with them.
    have hspare : 5 * values.length - 8 * (5 * values.length / 8) = 0 := by omega
    refine ⟨_, values, hvalues, if_pos ?_⟩
    rw [hspare]
    exact ⟨by decide, Nat.mod_one _⟩

end PeerProtocol.Text.Base32
