import PeerProtocol.CompactSize

/-!
# Readers

A reader takes a value off the front of a byte string and returns what follows. `Reads` says that
it takes a value off certain bytes whatever follows them, and `Local` that it never looks beyond
the bytes that it takes: what it accepts somewhere it reads everywhere. Readers that are composed
from local readers are local, and what is written field by field is read field by field. The
numbers of the wire are written and read accordingly.
-/

namespace PeerProtocol

open Bytes

/-- Takes a value off the front of a byte string. -/
abbrev Reader (α : Type) := Bytes → Except CodecError (α × Bytes)

/-- The reader takes this value off these bytes, whatever follows them. -/
def Reads {α : Type} (reader : Reader α) (bytes : Bytes) (value : α) : Prop :=
  ∀ tail, reader (bytes ++ tail) = .ok (value, tail)

/-- The reader does not look beyond the bytes that it takes. -/
def Local {α : Type} (reader : Reader α) : Prop :=
  ∀ input value rest, reader input = .ok (value, rest) →
    ∃ front, input = front ++ rest ∧ Reads reader front value

variable {α β : Type}

/-- One reader after the other. -/
def Reader.andThen (reader : Reader α) (next : α → Reader β) : Reader β := fun input =>
  reader input >>= fun parsed => next parsed.1 parsed.2

/-- Always the same value, off no bytes. -/
def Reader.ofValue (value : α) : Reader α := fun input => .ok (value, input)

/-- Values that are written one after the other are read one after the other. -/
theorem Reads.andThen {reader : Reader α} {next : α → Reader β} {front back : Bytes} {first : α}
    {second : β} (hfirst : Reads reader front first) (hsecond : Reads (next first) back second) :
    Reads (reader.andThen next) (front ++ back) second := by
  intro tail
  rw [List.append_assoc, Reader.andThen, hfirst]
  exact hsecond tail

/-- A value that is not read is written as nothing. -/
theorem reads_ofValue (value : α) : Reads (Reader.ofValue value) [] value :=
  fun _ => rfl

/-- A value that is made of what is read last needs no bytes of its own. -/
theorem Reads.map {reader : Reader α} {bytes : Bytes} {value : α} (h : Reads reader bytes value)
    (f : α → β) : Reads (reader.andThen fun value => Reader.ofValue (f value)) bytes (f value) := by
  have hmap :
      Reads (reader.andThen fun value => Reader.ofValue (f value)) (bytes ++ []) (f value) :=
    h.andThen (reads_ofValue (f value))
  rwa [List.append_nil] at hmap

/-- What one reader after the other gives was given by both. -/
theorem Reader.andThen_eq_ok {reader : Reader α} {next : α → Reader β} {input rest : Bytes}
    {value : β} (h : reader.andThen next input = .ok (value, rest)) :
    ∃ first middle, reader input = .ok (first, middle) ∧ next first middle = .ok (value, rest) := by
  unfold Reader.andThen at h
  cases hfirst : reader input with
  | error error =>
    rw [hfirst] at h
    cases h
  | ok parsed =>
    rw [hfirst] at h
    exact ⟨parsed.1, parsed.2, rfl, h⟩

/-- Local readers one after the other are a local reader. -/
theorem Local.andThen {reader : Reader α} {next : α → Reader β} (h : Local reader)
    (hnext : ∀ value, Local (next value)) : Local (reader.andThen next) := by
  intro input value rest hread
  obtain ⟨first, middle, hfirst, hsecond⟩ := Reader.andThen_eq_ok hread
  obtain ⟨front, rfl, hfront⟩ := h input first middle hfirst
  obtain ⟨back, rfl, hback⟩ := hnext first middle value rest hsecond
  exact ⟨front ++ back, by rw [List.append_assoc], hfront.andThen hback⟩

/-- A reader of nothing is local. -/
theorem local_ofValue (value : α) : Local (Reader.ofValue value) := by
  intro input read rest hread
  obtain ⟨rfl, rfl⟩ := Prod.mk.inj (Except.ok.inj hread)
  exact ⟨[], rfl, reads_ofValue value⟩

/-- A reader that always fails is local. -/
theorem local_error (error : CodecError) : Local (fun _ => .error error : Reader α) := by
  intro input value rest hread
  cases hread

/-- A fixed number of leading bytes, turned into a value that may be refused. -/
theorem local_split {count : Nat} {missing : CodecError} (make : Bytes → Except CodecError α)
    {reader : Reader α}
    (hreader : ∀ input, reader input = match input.split? count with
      | none => .error missing
      | some (front, rest) => (make front).map fun value => (value, rest)) : Local reader := by
  intro input value rest hread
  rw [hreader] at hread
  cases hsplit : input.split? count with
  | none =>
    rw [hsplit] at hread
    cases hread
  | some parts =>
    obtain ⟨front, tail⟩ := parts
    obtain ⟨rfl, hlength⟩ := split?_eq_some_iff.1 hsplit
    rw [hsplit] at hread
    cases hmake : make front with
    | error error => simp [hmake, Except.map] at hread
    | ok made =>
      simp only [hmake, Except.map, Except.ok.injEq, Prod.mk.injEq] at hread
      obtain ⟨rfl, rfl⟩ := hread
      refine ⟨front, rfl, fun more => ?_⟩
      rw [hreader, split?_eq_some_iff.2 ⟨rfl, hlength⟩]
      simp only [hmake, Except.map]

/-! ## Numbers -/

/-- Little-endian bytes are read as their number. -/
theorem reads_littleEndian (field : Field) (bytes : Bytes) :
    Reads (readLittleEndian field bytes.length) bytes (ofLittleEndian bytes) := by
  intro tail
  unfold readLittleEndian
  rw [split?_eq_some_iff.2 ⟨rfl, rfl⟩]

/-- Big-endian bytes are read as their number. -/
theorem reads_bigEndian (field : Field) (bytes : Bytes) :
    Reads (readBigEndian field bytes.length) bytes (ofBigEndian bytes) := by
  intro tail
  unfold readBigEndian
  rw [split?_eq_some_iff.2 ⟨rfl, rfl⟩]

/-- A number that fits its width is read as it was written. -/
theorem reads_littleEndian_of_lt (field : Field) {width value : Nat} (h : value < span width) :
    Reads (readLittleEndian field width) (littleEndian width value) value := by
  have hreads := reads_littleEndian field (littleEndian width value)
  rwa [length_littleEndian, ofLittleEndian_littleEndian, Nat.mod_eq_of_lt h] at hreads

/-- A number that fits its width is read as it was written. -/
theorem reads_bigEndian_of_lt (field : Field) {width value : Nat} (h : value < span width) :
    Reads (readBigEndian field width) (bigEndian width value) value := by
  have hreads := reads_bigEndian field (bigEndian width value)
  rwa [length_bigEndian, ofBigEndian_bigEndian, Nat.mod_eq_of_lt h] at hreads

/-- A little-endian number is read locally. -/
theorem local_littleEndian (field : Field) (width : Nat) :
    Local (readLittleEndian field width) :=
  local_split (fun front => .ok (ofLittleEndian front)) fun _ => by
    unfold readLittleEndian
    rfl

/-- A big-endian number is read locally. -/
theorem local_bigEndian (field : Field) (width : Nat) : Local (readBigEndian field width) :=
  local_split (fun front => .ok (ofBigEndian front)) fun _ => by
    unfold readBigEndian
    rfl

/-- A marker is dropped before the number in its width is read. -/
theorem Reads.cons {reader tagged : Reader α} {bytes : Bytes} {value : α} {tag : UInt8}
    (h : Reads reader bytes value) (htag : ∀ rest, tagged (tag :: rest) = reader rest) :
    Reads tagged (tag :: bytes) value := by
  intro tail
  rw [List.cons_append, htag]
  exact h tail

namespace CompactSize

/-- The number after a marker is read as it was written. -/
theorem reads_decodeFixed (field : Field) {width : Nat} {value : UInt64}
    (h : value.toNat < span width) :
    Reads (decodeFixed field width) (littleEndian width value.toNat) value := by
  have hreads := (reads_littleEndian_of_lt field h).map UInt64.ofNat
  rwa [UInt64.ofNat_toNat] at hreads

/-- The number after a marker is read locally. -/
theorem local_decodeFixed (field : Field) (width : Nat) : Local (decodeFixed field width) :=
  (local_littleEndian field width).andThen fun value => local_ofValue (UInt64.ofNat value)

/-- A number is read as it was written. -/
theorem reads_encode (value : UInt64) : Reads decode (encode value) value := by
  have hwide := value.toNat_lt
  unfold encode
  split
  next hsmall =>
    intro tail
    have hbyte : (UInt8.ofNat value.toNat).toNat = value.toNat := by
      rw [UInt8.toNat_ofNat']
      omega
    -- Small numbers are their own markers, which announce no width.
    have hmarker : ∀ marker : UInt8, 0xFD ≤ marker.toNat → UInt8.ofNat value.toNat ≠ marker := by
      rintro marker hmarker rfl
      omega
    show decode (UInt8.ofNat value.toNat :: tail) = _
    rw [decode, if_neg (hmarker 0xFD (by decide)), if_neg (hmarker 0xFE (by decide)),
      if_neg (hmarker 0xFF (by decide)), hbyte, UInt64.ofNat_toNat]
  next =>
    split
    next hshort => exact (reads_decodeFixed .compactSize16 hshort).cons fun _ => rfl
    next =>
      split
      next hmiddle => exact (reads_decodeFixed .compactSize32 hmiddle).cons fun _ => rfl
      next => exact (reads_decodeFixed .compactSize64 hwide).cons fun _ => rfl

/-- What stands behind a marker is read locally, so the marker with it is. -/
theorem local_cons {reader : Reader UInt64} {marker : UInt8} (h : Local reader)
    (hmarker : ∀ rest, decode (marker :: rest) = reader rest) (rest : Bytes) (value : UInt64)
    (after : Bytes) (hread : decode (marker :: rest) = .ok (value, after)) :
    ∃ front, marker :: rest = front ++ after ∧ Reads decode front value := by
  rw [hmarker] at hread
  obtain ⟨front, rfl, hfront⟩ := h rest value after hread
  exact ⟨marker :: front, rfl, hfront.cons hmarker⟩

/-- A number is read locally, whatever its form. -/
theorem local_decode : Local decode := by
  intro input value rest hread
  cases input with
  | nil => cases hread
  | cons marker bytes =>
    by_cases hfd : marker = 0xFD
    · subst hfd
      exact local_cons (local_decodeFixed .compactSize16 2) (fun _ => rfl) bytes value rest hread
    by_cases hfe : marker = 0xFE
    · subst hfe
      exact local_cons (local_decodeFixed .compactSize32 4) (fun _ => rfl) bytes value rest hread
    by_cases hff : marker = 0xFF
    · subst hff
      exact local_cons (local_decodeFixed .compactSize64 8) (fun _ => rfl) bytes value rest hread
    have hmarker : ∀ rest, decode (marker :: rest) = .ok (UInt64.ofNat marker.toNat, rest) := by
      intro rest
      rw [decode, if_neg hfd, if_neg hfe, if_neg hff]
    exact local_cons (local_ofValue (UInt64.ofNat marker.toNat)) hmarker bytes value rest hread

end CompactSize

end PeerProtocol
