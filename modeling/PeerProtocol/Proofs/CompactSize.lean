import PeerProtocol.Proofs.Endpoint.Rewriting
import PeerProtocol.Proofs.Writing

/-!
# Numbers anywhere in a buffer

A program writes a number by appending a marker and the low bytes of the number, cut to a width, and
reads one by moving a cursor over a buffer, byte by byte and slice by slice (`readAt`). Both do what
is said of numbers at the front of a byte string: appending appends the shortest form (`on_write`),
and the cursor comes to stand before what a reader of the front leaves (`readAt_eq`). A form of a
number (`Form`) is read alike wherever it stands, since no reader looks beyond it. The main
statement, `concordant`, says how the two and the foretold size agree for every number.
-/

namespace PeerProtocol

open Bytes

/-! ## Cursors -/

/-- What comes of reading a buffer at a cursor, and where the cursor is then. -/
abbrev Scan (α : Type) : Type := Bytes → Nat → Except CodecError α × Nat

/-- A slice of so many bytes. One that does not lie in the buffer is an error, which leaves the
cursor. -/
def Scan.slice (field : Field) (count : Nat) : Scan Bytes := fun buffer cursor =>
  if cursor + count ≤ buffer.length then
    (.ok ((buffer.drop cursor).take count), cursor + count)
  else (.error (.truncated field), cursor)

namespace CompactSize

open Writing (append)

/-- Appends a number: alone if it is small, else behind the marker of its width and cut to that. -/
def write (value : UInt64) : Writing Unit :=
  if value.toNat < 0xFD then append [value.toUInt8]
  else if value.toNat < 0x10000 then do
    append [0xFD]
    append (littleEndian 2 value.toUInt16.toNat)
  else if value.toNat < 0x100000000 then do
    append [0xFE]
    append (littleEndian 4 value.toUInt32.toNat)
  else do
    append [0xFF]
    append (littleEndian 8 value.toNat)

/-- The number in the slice of a width at the cursor. -/
def readFixedAt (field : Field) (width : Nat) : Scan UInt64 := fun buffer cursor =>
  let (bytes, cursor) := Scan.slice field width buffer cursor
  (bytes.map fun bytes => UInt64.ofNat (ofLittleEndian bytes), cursor)

/-- The number at the cursor, in any of its forms. The cursor is behind the marker already when
what should follow it is missing. -/
def readAt : Scan UInt64 := fun buffer cursor =>
  match buffer[cursor]? with
  | none => (.error (.truncated .compactSize), cursor)
  | some marker =>
      if marker = 0xFD then readFixedAt .compactSize16 2 buffer (cursor + 1)
      else if marker = 0xFE then readFixedAt .compactSize32 4 buffer (cursor + 1)
      else if marker = 0xFF then readFixedAt .compactSize64 8 buffer (cursor + 1)
      else (.ok (UInt64.ofNat marker.toNat), cursor + 1)

/-! ## Writing and reading at a cursor -/

/-- Cutting a number to the width in which it is written leaves its low bytes. -/
theorem littleEndian_mod_span (width value : Nat) :
    littleEndian width (value % span width) = littleEndian width value := by
  have hback := littleEndian_ofLittleEndian (littleEndian width value)
  rwa [length_littleEndian, ofLittleEndian_littleEndian] at hback

/-- Writing a number appends its shortest form. -/
theorem on_write (value : UInt64) (out : Bytes) :
    (write value).on out = (.ok (), out ++ encode value) := by
  have hmarked (marker : UInt8) (bytes : Bytes) :
      (append [marker] >>= fun _ => append bytes).on out = (.ok (), out ++ marker :: bytes) := by
    rw [Writing.on_append_bind, Writing.on_append, List.append_assoc, List.singleton_append]
  unfold write encode
  split
  next => exact Writing.on_append _ _
  next =>
    split
    next =>
      have hcut : littleEndian 2 value.toUInt16.toNat = littleEndian 2 value.toNat := by
        rw [UInt64.toNat_toUInt16]
        exact littleEndian_mod_span 2 value.toNat
      rw [hmarked, hcut]
    next =>
      split
      next =>
        have hcut : littleEndian 4 value.toUInt32.toNat = littleEndian 4 value.toNat := by
          rw [UInt64.toNat_toUInt32]
          exact littleEndian_mod_span 4 value.toNat
        rw [hmarked, hcut]
      next => exact hmarked _ _

/-- The slice at a cursor is what is split off there. -/
theorem slice_eq (field : Field) (count : Nat) {buffer : Bytes} {cursor : Nat}
    (hcursor : cursor ≤ buffer.length) :
    Scan.slice field count buffer cursor =
      match Bytes.split? count (buffer.drop cursor) with
      | none => (.error (.truncated field), cursor)
      | some (front, rest) => (.ok front, buffer.length - rest.length) := by
  unfold Scan.slice split?
  simp only [List.length_take, List.length_drop]
  split
  next hfits =>
    rw [if_pos (by omega)]
    simp only [List.length_drop]
    rw [show buffer.length - (buffer.length - cursor - count) = cursor + count by omega]
  next hshort => rw [if_neg (by omega)]

/-- The number in the slice at a cursor is the one that stands at the front from there. -/
theorem readFixedAt_eq (field : Field) (width : Nat) {buffer : Bytes} {cursor : Nat}
    (hcursor : cursor ≤ buffer.length) :
    readFixedAt field width buffer cursor =
      match decodeFixed field width (buffer.drop cursor) with
      | .error error => (.error error, cursor)
      | .ok (value, rest) => (.ok value, buffer.length - rest.length) := by
  unfold readFixedAt decodeFixed readLittleEndian
  rw [slice_eq field width hcursor]
  cases Bytes.split? width (buffer.drop cursor) with
  | none => rfl
  | some parts => rfl

/-- Reading at a cursor reads what stands at the front from there, and the cursor comes to stand
before what is left. -/
theorem readAt_eq (buffer : Bytes) (cursor : Nat) :
    readAt buffer cursor =
      match decode (buffer.drop cursor) with
      | .error error => (.error error, if cursor < buffer.length then cursor + 1 else cursor)
      | .ok (value, rest) => (.ok value, buffer.length - rest.length) := by
  unfold readAt
  by_cases hcursor : cursor < buffer.length
  · rw [List.getElem?_eq_getElem hcursor, List.drop_eq_getElem_cons hcursor, if_pos hcursor]
    have hfixed (field : Field) (width : Nat) := readFixedAt_eq field width hcursor
    simp only [decode]
    split
    next => exact hfixed .compactSize16 2
    next =>
      split
      next => exact hfixed .compactSize32 4
      next =>
        split
        next => exact hfixed .compactSize64 8
        next =>
          simp only [List.length_drop]
          rw [show buffer.length - (buffer.length - (cursor + 1)) = cursor + 1 by omega]
  · rw [List.getElem?_eq_none (Nat.le_of_not_lt hcursor),
      List.drop_eq_nil_of_le (Nat.le_of_not_lt hcursor), if_neg hcursor]
    rfl

/-! ## Forms -/

/-- These bytes are accepted as the number, and all of them are used. -/
def Form (value : UInt64) (form : Bytes) : Prop :=
  readAt form 0 = (.ok value, form.length)

/-- A number that is read at a cursor stands at the front from there, and the cursor comes to stand
before what follows it. -/
theorem decode_of_readAt {buffer : Bytes} {cursor next : Nat} {value : UInt64}
    (h : readAt buffer cursor = (.ok value, next)) :
    ∃ rest, decode (buffer.drop cursor) = .ok (value, rest) ∧
      next = buffer.length - rest.length := by
  rw [readAt_eq] at h
  split at h
  next => cases (Prod.mk.inj h).1
  next read rest hread =>
    obtain ⟨hvalue, rfl⟩ := Prod.mk.inj h
    obtain rfl := Except.ok.inj hvalue
    exact ⟨rest, hread, rfl⟩

/-- What is read off some bytes whatever follows is read off them wherever they stand. -/
theorem readAt_of_reads {value : UInt64} {form : Bytes} (h : Reads decode form value)
    (before after : Bytes) :
    readAt (before ++ form ++ after) before.length = (.ok value, before.length + form.length) := by
  rw [readAt_eq, List.append_assoc, List.drop_left, h after]
  simp only [List.length_append]
  rw [show before.length + (form.length + after.length) - after.length =
    before.length + form.length by omega]

/-- The forms of a number are the bytes off which it is read whatever follows them. -/
theorem form_iff_reads {value : UInt64} {form : Bytes} :
    Form value form ↔ Reads decode form value := by
  constructor
  · intro h
    obtain ⟨rest, hread, hlength⟩ := decode_of_readAt h
    obtain ⟨front, hform, hreads⟩ := local_decode form value rest hread
    cases rest with
    | nil =>
      rw [List.append_nil] at hform
      rwa [hform]
    | cons byte rest =>
      -- A reader that leaves a byte has not used all of them.
      rw [hform, List.length_append, List.length_cons] at hlength
      omega
  · intro h
    have hread := readAt_of_reads h [] []
    rwa [List.nil_append, List.append_nil, List.length_nil, Nat.zero_add] at hread

/-- A form of a number is the shortest, which is written, or has more bytes. -/
theorem Form.eq_or_lt {value : UInt64} {form : Bytes} (h : Form value form) :
    encode value = form ∨ size value < form.length := by
  have hread := form_iff_reads.1 h []
  rw [List.append_nil] at hread
  obtain ⟨other, hother, hshortens⟩ := shortens_of_decode hread
  rw [List.append_nil] at hother
  rw [hother]
  cases hshortest : isShortest form with
  | true =>
    rw [hshortest] at hshortens
    exact .inl hshortens
  | false =>
    rw [hshortest] at hshortens
    rw [← length_encode]
    exact .inr hshortens

example : Form 1 [0xFD, 0x01, 0x00] ∧ encode 1 = [0x01] := ⟨rfl, rfl⟩

/-- A number that is read at a cursor stands there in one of its forms, and the cursor comes to
stand behind it. -/
theorem exists_form_of_readAt {buffer : Bytes} {cursor next : Nat} {value : UInt64}
    (h : readAt buffer cursor = (.ok value, next)) :
    ∃ before form after, Form value form ∧ buffer = before ++ form ++ after ∧
      cursor = before.length ∧ next = before.length + form.length := by
  obtain ⟨after, hread, hnext⟩ := decode_of_readAt h
  obtain ⟨form, hform, hreads⟩ := local_decode _ value after hread
  have hlength := congrArg List.length hform
  rw [List.length_drop, List.length_append] at hlength
  have hpos : 0 < form.length := by
    rw [List.length_pos_iff]
    rintro rfl
    cases hreads []
  have hbefore : (buffer.take cursor).length = cursor := by
    rw [List.length_take]
    omega
  refine ⟨buffer.take cursor, form, after, form_iff_reads.2 hreads, ?_, hbefore.symm, ?_⟩
  · rw [List.append_assoc, ← hform, List.take_append_drop]
  · omega

/-- How a number is written and read, anywhere in a buffer. -/
structure Concordant (value : UInt64) : Prop where
  /-- Writing appends the shortest form, which has the size that is foretold. -/
  written : ∀ out, (write value).on out = (.ok (), out ++ encode value) ∧
    (encode value).length = size value
  /-- Between any bytes the shortest form is read as the number, and the cursor moves on by the size
  that is foretold. -/
  readBack : ∀ before after, readAt (before ++ encode value ++ after) before.length =
    (.ok value, before.length + size value)
  /-- No fewer bytes are read as the number, wherever in them it stands. -/
  shortest : ∀ bytes cursor next, readAt bytes cursor = (.ok value, next) →
    cursor + size value ≤ next ∧ next ≤ bytes.length
  /-- A form of the number is what is written for it if and only if it is as short. -/
  rewritten_iff : ∀ form, Form value form → (encode value = form ↔ form.length = size value)
  /-- No form of a number begins with a form of this one but that form itself. -/
  prefixFree : ∀ form, Form value form → ∀ other longer, Form other longer → form <+: longer →
    other = value ∧ longer = form
  /-- What the cursor moves over is a form of the number, and it moves over these bytes alike
  wherever they stand. -/
  moved : ∀ buffer cursor next, readAt buffer cursor = (.ok value, next) →
    ∃ before form after, Form value form ∧ buffer = before ++ form ++ after ∧
      cursor = before.length ∧ next = cursor + form.length ∧ ∀ front back,
        readAt (front ++ form ++ back) front.length = (.ok value, front.length + form.length)

/-- Writing, reading and the foretold size agree on every number. -/
theorem concordant (value : UInt64) : Concordant value where
  written out := ⟨on_write value out, length_encode value⟩
  readBack before after := by
    rw [readAt_of_reads (reads_encode value), length_encode]
  shortest bytes cursor next h := by
    obtain ⟨before, form, after, hform, rfl, rfl, rfl⟩ := exists_form_of_readAt h
    have hsize : size value ≤ form.length := by
      rcases hform.eq_or_lt with rfl | hlonger
      · exact Nat.le_of_eq (length_encode value).symm
      · exact Nat.le_of_lt hlonger
    simp only [List.length_append]
    omega
  rewritten_iff form hform := by
    constructor
    · rintro rfl
      exact length_encode value
    · intro hlength
      exact hform.eq_or_lt.resolve_right (by omega)
  prefixFree form hform other longer hlonger hprefix := by
    obtain ⟨rest, rfl⟩ := hprefix
    have hread := form_iff_reads.1 hform rest
    have hwhole := form_iff_reads.1 hlonger []
    rw [List.append_nil, hread] at hwhole
    obtain ⟨rfl, rfl⟩ := Prod.mk.inj (Except.ok.inj hwhole)
    exact ⟨rfl, List.append_nil form⟩
  moved buffer cursor next h := by
    obtain ⟨before, form, after, hform, rfl, rfl, rfl⟩ := exists_form_of_readAt h
    exact ⟨before, form, after, hform, rfl, rfl, rfl, readAt_of_reads (form_iff_reads.1 hform)⟩

end CompactSize

end PeerProtocol
